import Tlsdate.Getopt
import Tlsdate.Options

namespace Tlsdate.TlsdateMain

open Getopt Options

/-- The local variables of `main`. A `char *` is `none` for NULL. -/
structure Settings where
  verbose : Bool
  caRacket : Bool
  showtime : Nat
  setclock : Bool
  host : Option Arg
  port : Option Arg
  protocol : Option Arg
  caCertContainer : Option Arg
  timewarp : Bool
  leap : Bool
  proxy : Option Arg
  http : Bool
  deriving DecidableEq, Repr

def defaultProtocol : String := "tlsv1"

/-- TLSDATE_CERTFILE is set when the program is built. -/
def defaults (certfile : Arg) : Settings where
  verbose := false
  caRacket := true
  showtime := 0
  setclock := true
  host := some defaultHost.toList
  port := some defaultPort.toList
  protocol := some defaultProtocol.toList
  caCertContainer := some certfile
  timewarp := false
  leap := false
  proxy := none
  http := false

def table : Table where
  optstring := "vV::shH:p:P:nC:tlx:w".toList
  long := [
    ⟨"verbose".toList, .no, 'v'⟩,
    ⟨"showtime".toList, .optional, 'V'⟩,
    ⟨"skip-verification".toList, .no, 's'⟩,
    ⟨"help".toList, .no, 'h'⟩,
    ⟨"host".toList, .no, 'H'⟩,
    ⟨"port".toList, .no, 'p'⟩,
    ⟨"protocol".toList, .no, 'P'⟩,
    ⟨"dont-set-clock".toList, .no, 'n'⟩,
    ⟨"certcontainer".toList, .no, 'C'⟩,
    ⟨"timewarp".toList, .no, 't'⟩,
    ⟨"leap".toList, .no, 'l'⟩,
    ⟨"proxy".toList, .no, 'x'⟩,
    ⟨"http".toList, .no, 'w'⟩]

/-- The `switch`; `none` where the usage is shown and the program exits. -/
def handle (f : Found) (c : Settings) : Option Settings :=
  match f.val with
  | 'v' => some { c with verbose := true }
  | 'V' => some { c with showtime := if f.optarg = some "raw".toList then 2 else 1 }
  | 's' => some { c with caRacket := false }
  | 'h' => none
  | 'H' => some { c with host := f.optarg }
  | 'p' => some { c with port := f.optarg }
  | 'P' => some { c with protocol := f.optarg }
  | 'n' => some { c with setclock := false }
  | 'C' => some { c with caCertContainer := f.optarg }
  | 't' => some { c with timewarp := true }
  | 'l' => some { c with leap := true }
  | 'x' => some { c with proxy := f.optarg }
  | 'w' => some { c with http := true }
  | '?' => some c
  | _ => none

def run : List Found → Settings → Option Settings
  | [], c => some c
  | f :: fs, c => (handle f c).bind (run fs)

/-- The arguments that the call of `execlp` lists before its NULL. -/
def arguments (c : Settings) : List (Option Arg) :=
  [some "tlsdate".toList,
    c.host,
    c.port,
    c.protocol,
    some (if c.caRacket then "racket" else "unchecked").toList,
    some (if c.verbose then "verbose" else "quiet").toList,
    c.caCertContainer,
    some (if c.setclock then "setclock" else "dont-set-clock").toList,
    some (if c.showtime ≠ 0 then if c.showtime = 2 then "showtime=raw" else "showtime"
      else "no-showtime").toList,
    some (if c.timewarp then "timewarp" else "no-fun").toList,
    some (if c.leap then "leapaway" else "holdfast").toList,
    some (c.proxy.getD "none".toList),
    some (if c.http then "http" else "tls").toList]

/-- The list of `execlp` ends at the first NULL. -/
def execlp : List (Option Arg) → List Arg
  | some arg :: args => arg :: execlp args
  | _ => []

/-- `main` of tlsdate, with the arguments after its own name: what it executes the helper
with, or `none` where it shows its usage. -/
def tlsdate (certfile : Arg) (posixlyCorrect : Bool) (args : List Arg) : Option (List Arg) :=
  (run (table.getoptLong posixlyCorrect args) (defaults certfile)).map fun c => execlp (arguments c)

structure HelperSettings where
  host : Arg
  port : Arg
  protocol : Arg
  caCertContainer : Arg
  caRacket : Bool
  verbose : Bool
  verboseDebug : Bool
  setclock : Bool
  showtime : Bool
  showtimeRaw : Bool
  timewarp : Bool
  leap : Bool
  proxy : Option Arg
  http : Bool
  deriving DecidableEq, Repr

/-- The start of `main` of the helper; `none` where it returns 1 at once. -/
def readArguments : List Arg → Option HelperSettings
  | [_, host, port, protocol, racket, verbose, caCertContainer, setclock, showtime, timewarp, leap,
      proxy, http] =>
      some {
        host := host
        port := port
        protocol := protocol
        caCertContainer := caCertContainer
        caRacket := racket != "unchecked".toList
        verbose := verbose != "quiet".toList
        verboseDebug := verbose != "verbose".toList
        setclock := setclock == "setclock".toList
        showtime := showtime == "showtime".toList
        showtimeRaw := showtime == "showtime=raw".toList
        timewarp := timewarp == "timewarp".toList
        leap := leap == "leapaway".toList
        proxy := if proxy = "none".toList then none else some proxy
        http := http == "http".toList }
  | _ => none

variable {c c' d : Settings} {f : Found} {fs gs : List Found}

theorem run_append (fs gs : List Found) (c : Settings) :
    run (fs ++ gs) c = (run fs c).bind (run gs) := by
  induction fs generalizing c with
  | nil => rfl
  | cons f fs ih =>
      rw [List.cons_append, run, run, Option.bind_assoc]
      exact Option.bind_congr fun c _ => ih c

/-- None of the strings is NULL that could cut the list short. -/
def Settings.Complete (c : Settings) : Prop :=
  c.host.isSome ∧ c.port.isSome ∧ c.protocol.isSome ∧ c.caCertContainer.isSome

def Settings.forHelper (c : Settings) (host port protocol cert : Arg) : HelperSettings where
  host := host
  port := port
  protocol := protocol
  caCertContainer := cert
  caRacket := c.caRacket
  verbose := c.verbose
  verboseDebug := !c.verbose
  setclock := c.setclock
  showtime := decide (c.showtime ≠ 0 ∧ c.showtime ≠ 2)
  showtimeRaw := decide (c.showtime = 2)
  timewarp := c.timewarp
  leap := c.leap
  proxy := if c.proxy = some "none".toList then none else c.proxy
  http := c.http

theorem map_execlp {args : List (Option Arg)} (h : ∀ arg ∈ args, arg.isSome) :
    (execlp args).map some = args := by
  induction args with
  | nil => rfl
  | cons arg args ih =>
      obtain ⟨harg, hargs⟩ := List.forall_mem_cons.mp h
      obtain ⟨arg, rfl⟩ := Option.isSome_iff_exists.mp harg
      rw [execlp, List.map_cons, ih hargs]

theorem Settings.Complete.map_execlp (h : c.Complete) :
    (execlp (arguments c)).map some = arguments c := by
  obtain ⟨hhost, hport, hprotocol, hcert⟩ := h
  exact TlsdateMain.map_execlp (by simp [arguments, hhost, hport, hprotocol, hcert])

theorem flag_eq {yes no : String} (h : yes.toList ≠ no.toList) (b : Bool) :
    ((if b then yes else no).toList == yes.toList) = b := by
  cases b with
  | false => simpa using h.symm
  | true => simp

theorem flag_ne {yes no : String} (h : yes.toList ≠ no.toList) (b : Bool) :
    ((if b then yes else no).toList != no.toList) = b := by
  cases b with
  | false => simp
  | true => simpa using h

/-- What the helper reads is what the options set; without `-v` it takes its debug
messages for asked for. -/
theorem readArguments_execlp {host port protocol cert : Arg} (hhost : c.host = some host)
    (hport : c.port = some port) (hprotocol : c.protocol = some protocol)
    (hcert : c.caCertContainer = some cert) :
    readArguments (execlp (arguments c)) = some (c.forHelper host port protocol cert) := by
  obtain ⟨verbose, caRacket, showtime, setclock, chost, cport, cprotocol, ccert, timewarp, leap, proxy,
    http⟩ := c
  dsimp only at hhost hport hprotocol hcert
  subst hhost hport hprotocol hcert
  simp only [arguments, execlp, readArguments, Settings.forHelper, Option.some.injEq,
    HelperSettings.mk.injEq, true_and]
  refine ⟨flag_ne (by decide) _, flag_ne (by decide) _, ?_, flag_eq (by decide) _, ?_, ?_,
    flag_eq (by decide) _, flag_eq (by decide) _, ?_, flag_eq (by decide) _⟩
  · rw [bne, flag_eq (by decide)]
  · by_cases hzero : showtime = 0
    · simp [hzero]
    · by_cases hraw : showtime = 2 <;> simp [hzero, hraw]
  · by_cases hzero : showtime = 0
    · simp [hzero]
    · by_cases hraw : showtime = 2 <;> simp [hzero, hraw]
  · cases proxy with
    | none => rfl
    | some url => simp

theorem length_execlp (c : Settings) : (execlp (arguments c)).length = 13 ↔ c.Complete := by
  obtain ⟨verbose, caRacket, showtime, setclock, host, port, protocol, cert, timewarp, leap, proxy,
    http⟩ := c
  cases host <;> cases port <;> cases protocol <;> cases cert <;>
    simp [execlp, arguments, Settings.Complete]

end Tlsdate.TlsdateMain
