import Tlsdate.StartupChoice
import Tlsdate.TimeSetter

namespace Tlsdate.Restart

open HostBytes TimeSource Options TimestampFile TimeSetter EventLoop StartupChoice

/-- The file is a register of a time: a save sets it and unlinking clears it. -/
def keep (kept : Option Int) : Effect → Option Int
  | .unlink => none
  | .fileWrite sec true => some sec
  | _ => kept

def SaneWrites (build : Build) (es : List Effect) : Prop :=
  ∀ sec ok, .fileWrite sec ok ∈ es → isSaneTime build sec = true

variable {build : Build} {order : ByteOrder} {opts : Opts}

theorem SaneWrites.append {es fs : List Effect} (he : SaneWrites build es)
    (hf : SaneWrites build fs) : SaneWrites build (es ++ fs) :=
  fun sec ok h => (List.mem_append.mp h).elim (he sec ok) (hf sec ok)

theorem SaneWrites.take {es : List Effect} (h : SaneWrites build es) (n : Nat) :
    SaneWrites build (es.take n) :=
  fun sec ok hm => h sec ok (List.mem_of_mem_take hm)

end Tlsdate.Restart
