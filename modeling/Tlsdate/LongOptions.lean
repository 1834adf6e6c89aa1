import Tlsdate.TlsdateMain

namespace Tlsdate.LongOptions

open Getopt TlsdateMain

/-- The options that the usage shows with an argument that is not optional. -/
inductive ArgOption
  | host
  | port
  | protocol
  | certcontainer
  | proxy
  deriving DecidableEq, Repr

def ArgOption.val : ArgOption → Char
  | .host => 'H'
  | .port => 'p'
  | .protocol => 'P'
  | .certcontainer => 'C'
  | .proxy => 'x'

def ArgOption.name : ArgOption → String
  | .host => "host"
  | .port => "port"
  | .protocol => "protocol"
  | .certcontainer => "certcontainer"
  | .proxy => "proxy"

def ArgOption.short (o : ArgOption) : Arg := ['-', o.val]

def ArgOption.long (o : ArgOption) : Arg := '-' :: '-' :: o.name.toList

def ArgOption.get (o : ArgOption) (c : Settings) : Option Arg :=
  match o with
  | .host => c.host
  | .port => c.port
  | .protocol => c.protocol
  | .certcontainer => c.caCertContainer
  | .proxy => c.proxy

def ArgOption.passed (o : ArgOption) (c : Settings) : Option Arg :=
  match o with
  | .proxy => some (c.proxy.getD "none".toList)
  | _ => o.get c

variable {o : ArgOption} {c c' d : Settings} {f : Found} {fs : List Found} {posix : Bool} {a : Arg}

theorem read_short (o : ArgOption) : table.read o.short = some ⟨[], some o.val⟩ := by
  cases o <;> rfl

theorem read_long (o : ArgOption) : table.read o.long = some ⟨[⟨o.val, none⟩], none⟩ := by
  cases o <;> rfl

theorem get_handle (h : handle f c = some c') :
    o.get c' = if f.val = o.val then f.optarg else o.get c := by
  rw [handle] at h
  split at h
  all_goals cases h
  all_goals cases o <;> simp_all [ArgOption.get, ArgOption.val]

theorem get_run (h : run fs c = some c') :
    o.get c' = o.get c ∧ (∀ f ∈ fs, f.val ≠ o.val) ∨ ∃ f ∈ fs, f.val = o.val ∧ o.get c' = f.optarg := by
  induction fs generalizing c with
  | nil =>
      obtain rfl := Option.some.inj h
      exact Or.inl ⟨rfl, fun f hf => by cases hf⟩
  | cons f fs ih =>
      obtain ⟨d, hstep, hrun⟩ := Option.bind_eq_some_iff.mp h
      have hget := @get_handle o c d f hstep
      obtain ⟨hkept, hother⟩ | ⟨g, hg, hval, hset⟩ := ih hrun
      · by_cases hval : f.val = o.val
        · rw [if_pos hval] at hget
          exact Or.inr ⟨f, List.mem_cons_self, hval, hkept.trans hget⟩
        · rw [if_neg hval] at hget
          exact Or.inl ⟨hkept.trans hget, List.forall_mem_cons.mpr ⟨hval, hother⟩⟩
      · exact Or.inr ⟨g, List.mem_cons_of_mem _ hg, hval, hset⟩

def Alike (c d : Settings) : Prop :=
  { c with proxy := none } = { d with proxy := none } ∧
    c.proxy.getD "none".toList = d.proxy.getD "none".toList

theorem handle_alike (h : Alike c d) (f : Found) :
    Option.Rel Alike (handle f c) (handle f d) := by
  obtain ⟨verbose, caRacket, showtime, setclock, host, port, protocol, cert, timewarp, leap, proxy,
    http⟩ := c
  obtain ⟨hsame, hproxy⟩ := h
  obtain ⟨rfl, rfl, rfl, rfl, rfl, rfl, rfl, rfl, rfl, rfl, -, rfl⟩ := Settings.mk.inj hsame
  rw [handle, handle]
  split
  all_goals first | exact .none | exact .some ⟨rfl, hproxy⟩ | exact .some ⟨rfl, rfl⟩

theorem run_alike (h : Alike c d) (fs : List Found) : Option.Rel Alike (run fs c) (run fs d) := by
  induction fs generalizing c d with
  | nil => exact .some h
  | cons f fs ih =>
      rw [run, run]
      have hstep := handle_alike h f
      revert hstep
      generalize handle f c = x
      generalize handle f d = y
      intro hstep
      cases hstep with
      | none => exact .none
      | some hnext => exact ih hnext

theorem arguments_alike (h : Alike c d) : arguments c = arguments d := by
  obtain ⟨hsame, hproxy⟩ := h
  obtain ⟨hverbose, hracket, hshowtime, hsetclock, hhost, hport, hprotocol, hcert, htimewarp, hleap, -,
    hhttp⟩ := Settings.mk.inj hsame
  rw [arguments, arguments, hverbose, hracket, hshowtime, hsetclock, hhost,
    hport, hprotocol, hcert, htimewarp, hleap, hproxy, hhttp]

theorem passed_cases (o : ArgOption) (c : Settings) :
    o.passed c = o.get c ∨ o = .proxy ∧ o.get c = none ∧ o.passed c = some "none".toList := by
  cases o with
  | host | port | protocol | certcontainer => exact Or.inl rfl
  | proxy =>
      rw [ArgOption.passed, ArgOption.get]
      cases c.proxy with
      | none => exact Or.inr ⟨rfl, rfl, rfl⟩
      | some url => exact Or.inl rfl

theorem passed_eq (o : ArgOption) (h : arguments c = arguments d) : o.passed c = o.passed d := by
  rw [arguments, arguments] at h
  cases o <;> simp_all [ArgOption.passed, ArgOption.get]

variable {cert : Arg} {pre post args : List Arg}

theorem tlsdate_short (hpre : table.Options pre) (o : ArgOption) (a : Arg) (post : List Arg) :
    tlsdate cert posix (pre ++ o.short :: a :: post) = (run (table.getoptLong posix pre) (defaults cert)).bind
      fun c => (run (⟨o.val, some a⟩ :: table.getoptLong posix post) c).map fun c => execlp (arguments c) := by
  rw [tlsdate, hpre.getoptLong_append, getoptLong_valued (read_short o), List.nil_append, run_append,
    Option.map_bind]
  rfl

theorem tlsdate_long (hpre : table.Options pre) (o : ArgOption) (args : List Arg) :
    tlsdate cert posix (pre ++ o.long :: args) = (run (table.getoptLong posix pre) (defaults cert)).bind
      fun c => (run (⟨o.val, none⟩ :: table.getoptLong posix args) c).map fun c => execlp (arguments c) := by
  rw [tlsdate, hpre.getoptLong_append, getoptLong_alone (read_long o), run_append, Option.map_bind]
  rfl

theorem get_short {r : Settings} (hother : ∀ f ∈ table.getoptLong posix post, f.val ≠ o.val)
    (h : run (⟨o.val, some a⟩ :: table.getoptLong posix post) c = some r) : o.get r = some a := by
  obtain ⟨-, hnone⟩ | ⟨f, hf, hval, hset⟩ := @get_run o _ _ _ h
  · exact absurd rfl (hnone _ List.mem_cons_self)
  · obtain rfl | hf := List.mem_cons.mp hf
    · exact hset
    · exact absurd hval (hother f hf)

theorem get_long {r : Settings} {value : Arg} (hother : ∀ f ∈ table.getoptLong posix post, f.val ≠ o.val)
    (hwants : ∀ r, table.read a = some r → r.wants = none ∨ post = [])
    (h : run (⟨o.val, none⟩ :: table.getoptLong posix (a :: post)) c = some r)
    (hvalue : o.get r = some value) : value.length < a.length := by
  obtain ⟨-, hnone⟩ | ⟨f, hf, hval, hset⟩ := @get_run o _ _ _ h
  · exact absurd rfl (hnone _ List.mem_cons_self)
  · rw [hset] at hvalue
    obtain rfl | hf := List.mem_cons.mp hf
    · cases hvalue
    · obtain hshorter | hf := mem_getoptLong_cons hwants hf
      · exact hshorter value hvalue
      · exact absurd hval (hother f hf)

/-- If both forms give the helper the same twelve arguments, the one of the option is
the `none` that stands for no proxy. -/
theorem proxy_of_same (hpre : table.Options pre)
    (hother : ∀ f ∈ table.getoptLong posix post, f.val ≠ o.val)
    (hwants : ∀ r, table.read a = some r → r.wants = none ∨ post = [])
    (hshort : tlsdate cert posix (pre ++ o.short :: a :: post) = some args) (htwelve : args.length = 13)
    (hlong : tlsdate cert posix (pre ++ o.long :: a :: post) = some args) :
    o = .proxy ∧ a = "none".toList := by
  rw [tlsdate_short hpre, Option.bind_eq_some_iff] at hshort
  rw [tlsdate_long hpre, Option.bind_eq_some_iff] at hlong
  obtain ⟨c, hc, hshort⟩ := hshort
  obtain ⟨d, hd, hlong⟩ := hlong
  obtain rfl := Option.some.inj (hc.symm.trans hd)
  obtain ⟨r, hr, rfl⟩ := Option.map_eq_some_iff.mp hshort
  obtain ⟨s, hs, hsame⟩ := Option.map_eq_some_iff.mp hlong
  have hargs : arguments s = arguments r := by
    have hcomplete := (length_execlp s).mp (hsame ▸ htwelve)
    rw [← hcomplete.map_execlp, hsame, ((length_execlp r).mp htwelve).map_execlp]
  have hpassed := passed_eq o hargs
  have hget := get_short hother hr
  have hsome : o.passed r = some a := by
    obtain h | ⟨-, h, -⟩ := passed_cases o r
    · exact h.trans hget
    · rw [hget] at h
      cases h
  rw [hsome] at hpassed
  obtain h | ⟨hproxy, -, h⟩ := passed_cases o s
  · have hlt := get_long hother hwants hs (h.symm.trans hpassed)
    exact absurd hlt (Nat.lt_irrefl _)
  · exact ⟨hproxy, Option.some.inj (hpassed.symm.trans h)⟩

/-- `none` is an operand, and stands for the NULL that the long form leaves. -/
theorem proxy_none_same (hpre : table.Options pre) (post : List Arg) :
    tlsdate cert false (pre ++ ArgOption.proxy.long :: "none".toList :: post) =
      tlsdate cert false (pre ++ ArgOption.proxy.short :: "none".toList :: post) := by
  have hoperand : table.read "none".toList = none := by decide
  rw [tlsdate_short hpre, tlsdate_long hpre, getoptLong_operand hoperand (by decide)]
  refine Option.bind_congr fun c _ => ?_
  have hstep : Alike { c with proxy := none } { c with proxy := some "none".toList } := ⟨rfl, rfl⟩
  have hrun := run_alike hstep (table.getoptLong false post)
  change (run (table.getoptLong false post) { c with proxy := none }).map _ =
    (run (table.getoptLong false post) { c with proxy := some "none".toList }).map _
  revert hrun
  generalize run (table.getoptLong false post) { c with proxy := none } = x
  generalize run (table.getoptLong false post) { c with proxy := some "none".toList } = y
  intro hrun
  cases hrun with
  | none => rfl
  | some halike => rw [Option.map_some, Option.map_some, arguments_alike halike]

theorem short_twelve (cert : Arg) (posix : Bool) (o : ArgOption) (a : Arg) :
    ∃ args, tlsdate cert posix [o.short, a] = some args ∧ args.length = 13 := by
  have hshort := @tlsdate_short posix cert [] .nil o a []
  rw [List.nil_append] at hshort
  rw [hshort]
  cases o <;> exact ⟨_, rfl, rfl⟩

/-- With POSIXLY_CORRECT the `none` after the long form ends the options. -/
theorem proxy_none_posix (cert : Arg) :
    tlsdate cert true [ArgOption.proxy.long, "none".toList, "-w".toList] ≠
      tlsdate cert true [ArgOption.proxy.short, "none".toList, "-w".toList] := by
  have hlong : (tlsdate cert true [ArgOption.proxy.long, "none".toList, "-w".toList]).bind
      List.getLast? = some "tls".toList := rfl
  have hshort : (tlsdate cert true [ArgOption.proxy.short, "none".toList, "-w".toList]).bind
      List.getLast? = some "http".toList := rfl
  intro h
  rw [h, hshort] at hlong
  revert hlong
  decide

def Agree (cert : Arg) (posix : Bool) (o : ArgOption) (a : Arg) (pre post : List Arg) : Prop :=
  tlsdate cert posix (pre ++ o.long :: a :: post) = tlsdate cert posix (pre ++ o.short :: a :: post)

/-- The forms agree among all options only for `--proxy none`. Where the short form gives
the helper its twelve arguments, they agree for nothing else, unless a later option is
the same, or `a` is itself an option that takes the next argument. -/
theorem long_short_agree (cert : Arg) (o : ArgOption) (a : Arg) :
    (∀ posix, (∀ pre post, table.Options pre → table.Options post → Agree cert posix o a pre post) ↔
      o = .proxy ∧ a = "none".toList ∧ posix = false) ∧
    ∀ pre post args, table.Options pre →
      (∀ f ∈ table.getoptLong false post, f.val ≠ o.val) →
      (∀ r, table.read a = some r → r.wants = none ∨ post = []) →
      tlsdate cert false (pre ++ o.short :: a :: post) = some args → args.length = 13 →
      (Agree cert false o a pre post ↔ o = .proxy ∧ a = "none".toList) := by
  refine ⟨fun posix => ⟨fun hall => ?_, ?_⟩, ?_⟩
  · obtain ⟨args, hshort, htwelve⟩ := short_twelve cert posix o a
    have hsame : o = .proxy ∧ a = "none".toList :=
      @proxy_of_same o posix a cert [] [] args .nil (fun f hf => by cases hf) (fun _ _ => Or.inr rfl)
        hshort htwelve ((hall [] [] .nil .nil).trans hshort)
    refine ⟨hsame.1, hsame.2, ?_⟩
    cases posix with
    | false => rfl
    | true =>
        obtain ⟨rfl, rfl⟩ := hsame
        have hpost : table.Options ["-w".toList] := .alone rfl .nil
        exact absurd (hall [] _ .nil hpost) (proxy_none_posix cert)
  · rintro ⟨rfl, rfl, rfl⟩ pre post hpre -
    exact proxy_none_same hpre post
  · intro pre post args hpre hother hwants hshort htwelve
    constructor
    · intro hagree
      exact proxy_of_same hpre hother hwants hshort htwelve (hagree.trans hshort)
    · rintro ⟨rfl, rfl⟩
      exact proxy_none_same hpre post

theorem port_among_options :
    ∃ args, tlsdate "ca.crt".toList false ["-v".toList, "-p".toList, "80".toList, "-w".toList] =
        some args ∧ args.length = 13 ∧
      (Agree "ca.crt".toList false .port "80".toList ["-v".toList] ["-w".toList] ↔
        ArgOption.port = .proxy ∧ "80".toList = "none".toList) :=
  ⟨_, rfl, rfl, (long_short_agree "ca.crt".toList .port "80".toList).2 ["-v".toList] ["-w".toList] _
    (.alone rfl .nil) (by decide) (by decide) rfl rfl⟩

theorem host_dropped :
    tlsdate "ca.crt".toList false ["--host".toList, "a".toList] = some ["tlsdate".toList] ∧
      tlsdate "ca.crt".toList false ["-H".toList, "a".toList] =
        some (["tlsdate", "a", "443", "tlsv1", "racket", "quiet", "ca.crt", "setclock", "no-showtime",
          "no-fun", "holdfast", "none", "tls"].map String.toList) ∧
      ¬ Agree "ca.crt".toList false .host "a".toList [] [] := by
  refine ⟨by decide, by decide, ?_⟩
  rw [Agree]
  decide

end Tlsdate.LongOptions
