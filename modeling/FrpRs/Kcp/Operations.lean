import FrpRs.Data.Run
import FrpRs.Kcp.Protocol

/-!
# Calls on a state machine

A `Kcp` is constructed, configured before any data, and then driven by calls in
any order.  Results of the calls are not part of the state; the state each call
leaves behind is, whether the call succeeded or failed.
-/

namespace FrpRs
namespace Kcp

open Bytes

variable {Output : Type}

/-- A configuration call made before any data. -/
inductive Setting where
  | mtu (mtu : Nat)
  | wndsize (sndwnd rcvwnd : UInt16)
  | nodelay (nodelay : Bool) (interval resend : Int32) (nc : Bool)
  | interval (interval : UInt32)
  | rxMinrto (rto : UInt32)
  | fastResend (fr : UInt32)
  | maximumResendTimes (deadLink : UInt32)
deriving DecidableEq, Repr

def applySetting (k : Kcp Output) : Setting -> Kcp Output
  | .mtu mtu => (k.setMtu mtu).2
  | .wndsize sndwnd rcvwnd => k.setWndsize sndwnd rcvwnd
  | .nodelay nodelay interval resend nc => k.setNodelay nodelay interval resend nc
  | .interval interval => k.setInterval interval
  | .rxMinrto rto => k.setRxMinrto rto
  | .fastResend fr => k.setFastResend fr
  | .maximumResendTimes deadLink => k.setMaximumResendTimes deadLink

def configured (conv : UInt32) (output : Output) (stream : Bool)
    (settings : List Setting) : Kcp Output :=
  Run.run applySetting (construct conv output stream) settings

inductive Op where
  | send (buf : List Byte)
  | update (current : UInt32)
  | flush
  | recv (bufLen : Nat)
  | input (datagram : List Byte)
deriving DecidableEq, Repr

def apply [Write Output] (k : Kcp Output) : Op -> Kcp Output
  | .send buf => (k.send buf).2
  | .update current => (k.update current).2
  | .flush => k.flush.2
  | .recv bufLen => (k.recv bufLen).2
  | .input datagram => (k.input datagram).2

def driven [Write Output] (conv : UInt32) (output : Output) (stream : Bool)
    (settings : List Setting) (ops : List Op) : Kcp Output :=
  Run.run apply (configured conv output stream settings) ops

/-- The sink that keeps every datagram and never fails. -/
structure PacketWriter where
  packets : List (List Byte) := []
deriving DecidableEq, Repr

instance : Write PacketWriter where
  writeAll writer data := (.ok (), { packets := writer.packets ++ [data] })

/-!
## Update is a flush at a new time

`update` moves the clock and the flush schedule, and then either stops or
flushes.
-/

/-- The clock and schedule part of a state, which `update` changes before it
flushes. -/
def withClock (k : Kcp Output) (current tsFlush : UInt32) : Kcp Output :=
  { k with current := current, updated := true, tsFlush := tsFlush }

theorem update_cases [Write Output] (k : Kcp Output) (current : UInt32) :
    exists tsFlush,
      k.update current = (.ok (), k.withClock current tsFlush) ∨
        k.update current = (k.withClock current tsFlush).flush := by
  cases hupdated : k.updated with
  | false =>
    unfold update withClock
    simp only [hupdated, if_true]
    repeat' split
    all_goals first
      | exact ⟨_, .inr rfl⟩
      | exact ⟨_, .inl rfl⟩
  | true =>
    unfold update
    simp only [hupdated, Bool.true_eq_false, if_false]
    repeat' split
    all_goals first
      | exact ⟨_, .inr rfl⟩
      | exact ⟨_, .inl rfl⟩

end Kcp
end FrpRs
