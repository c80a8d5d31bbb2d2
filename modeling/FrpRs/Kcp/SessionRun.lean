import FrpRs.Kcp.Recovery
import FrpRs.Kcp.RoundTripTime

/-!
# Runs of a session

A session is driven by the calls of its owner, by packets and by the stream that takes
messages out of the read channel.  Whatever happens, its state machine is one that calls
on a `Kcp` can lead to.
-/

namespace FrpRs
namespace KcpSession

open Bytes

inductive SessionEvent where
  | call (op : SessionOp)
  | input (pruneMs nowMs : Nat) (data : List Byte)
  | read

def read (s : KcpSession) : KcpSession :=
  { s with readTx := { s.readTx with queue := s.readTx.queue.tail } }

def step (s : KcpSession) : SessionEvent -> KcpSession
  | .call op => (s.apply op).2
  | .input pruneMs nowMs data => (s.input pruneMs nowMs data).2
  | .read => s.read

theorem Quiet.reachable {s s' : KcpSession} (h : Quiet s s') (hs : s.kcp.Reachable) :
    s'.kcp.Reachable := by
  rcases h.kcp with ⟨ops, hops⟩
  have hcall : forall k : Kcp Kcp.PacketWriter, forall op, k.Reachable -> (k.apply op).Reachable :=
    fun _ op hk => hk.call op
  rw [hops]
  exact Run.run_preserves hcall ops hs

theorem step_reachable (s : KcpSession) (event : SessionEvent) (hs : s.kcp.Reachable) :
    (s.step event).kcp.Reachable := by
  cases event with
  | call op =>
    show (s.apply op).2.kcp.Reachable
    rcases apply_cases s op with ⟨hidle, _⟩ | ⟨s', hidle, heq⟩
    · exact hidle.1.reachable hs
    · rw [heq]
      show s'.emit.2.kcp.Reachable
      rw [(emit_frame s').1]
      exact (hidle.1.reachable hs).drained {}
  | input pruneMs nowMs data =>
    exact (input_quiet s pruneMs nowMs data).reachable hs
  | read =>
    exact hs

theorem run_reachable (conv : UInt32) (config : KcpConfig) (readTx : Channel)
    (events : List SessionEvent) :
    (Run.run step (KcpSession.new conv config readTx) events).kcp.Reachable :=
  @Run.run_preserves _ _ step (fun s => s.kcp.Reachable) step_reachable _ events
    (Kcp.Reachable.configured conv ({} : Kcp.PacketWriter) config.stream _)

theorem Quiet.sameLimits {s s' : KcpSession} (h : Quiet s s') (hs : s.kcp.inputConv = false) :
    Kcp.SameLimits s.kcp s'.kcp := by
  rcases h.kcp with ⟨ops, hops⟩
  rw [hops]
  exact Kcp.run_sameLimits s.kcp ops hs

theorem step_sameLimits {s : KcpSession} (hs : s.kcp.inputConv = false) (event : SessionEvent) :
    Kcp.SameLimits s.kcp (s.step event).kcp := by
  cases event with
  | call op =>
    show Kcp.SameLimits s.kcp (s.apply op).2.kcp
    rcases apply_cases s op with ⟨hidle, _⟩ | ⟨s', hidle, heq⟩
    · exact hidle.1.sameLimits hs
    · have hlimits := hidle.1.sameLimits hs
      rw [heq]
      show Kcp.SameLimits s.kcp s'.emit.2.kcp
      rw [(emit_frame s').1]
      exact ⟨hlimits.conv, hlimits.stream, hlimits.mss, hlimits.mtu, hlimits.inputConv⟩
  | input pruneMs nowMs data =>
    exact (input_quiet s pruneMs nowMs data).sameLimits hs
  | read =>
    exact ⟨rfl, rfl, rfl, rfl, rfl⟩

theorem run_stream (conv : UInt32) (config : KcpConfig) (readTx : Channel)
    (events : List SessionEvent) :
    (Run.run step (KcpSession.new conv config readTx) events).kcp.stream = config.stream := by
  have hstep : forall s : KcpSession, forall event,
      s.kcp.inputConv = false ∧ s.kcp.stream = config.stream ->
      (s.step event).kcp.inputConv = false ∧ (s.step event).kcp.stream = config.stream := by
    intro s event hs
    have hlimits := step_sameLimits hs.1 event
    exact ⟨hlimits.inputConv.trans hs.1, hlimits.stream.trans hs.2⟩
  have hpristine := Kcp.configured_pristine conv ({} : Kcp.PacketWriter) config.stream
    [.mtu config.mtu, .wndsize config.sndWnd config.rcvWnd,
      .nodelay config.nodelay config.interval config.resend config.nc]
  have hnew : (KcpSession.new conv config readTx).kcp.inputConv = false ∧
      (KcpSession.new conv config readTx).kcp.stream = config.stream :=
    ⟨hpristine.inputConv, hpristine.stream⟩
  exact (Run.run_preserves hstep events hnew).2

end KcpSession
end FrpRs
