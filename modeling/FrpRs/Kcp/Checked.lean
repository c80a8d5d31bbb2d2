import FrpRs.Data.Overflow
import FrpRs.Kcp.Protocol

/-!
# Round-trip times with overflow checks

`update_ack` as a build with overflow checks runs it: every addition and multiplication of the
source is the checked one, and `none` is the panic.
-/

namespace FrpRs
namespace Kcp
namespace Checked

open Bytes
open Overflow

variable {Output : Type}

def smoothRtt (k : Kcp Output) (rtt : UInt32) : Option (Kcp Output) :=
  if k.rxSrtt = 0 then
    some { k with rxSrtt := rtt, rxRttval := rtt / 2 }
  else
    let delta := absDiff rtt k.rxSrtt
    (mulU32 3 k.rxRttval).bind fun tripled =>
    (addU32 tripled delta).bind fun rttval =>
    (mulU32 7 k.rxSrtt).bind fun scaled =>
    (addU32 scaled rtt).bind fun srtt =>
    some { k with
      rxRttval := rttval / 4
      rxSrtt := if srtt / 8 < 1 then 1 else srtt / 8 }

def updateAck (k : Kcp Output) (rtt : UInt32) : Option (Kcp Output) :=
  (smoothRtt k (min rtt rtoMax)).bind fun k =>
  (mulU32 4 k.rxRttval).bind fun spread =>
  (addU32 k.rxSrtt (max k.interval spread)).bind fun rto =>
  some { k with rxRto := bound k.rxMinrto rto rtoMax }

end Checked
end Kcp
end FrpRs
