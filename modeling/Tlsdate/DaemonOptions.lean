import Tlsdate.CertCheck
import Tlsdate.Getopt
import Tlsdate.Registers
import Tlsdate.SourceStanzas

namespace Tlsdate.DaemonOptions

open TimeSource Options Getopt ConfFile SourceStanzas Registers
open ProxyBio (ascii)
open PacProxy (text)
open ProxySetup (atoi)
open CertCheck (bind_ok ite_error)

structure Built where
  build : Build
  confFile : String
  unprivUser : String
  unprivGroup : String

structure Config extends ConfFile.Settings where
  verboseDebug : Bool
  confFile : Option String
  user : String
  group : String

inductive Exit
  | usage
  | fatal (message : String)

/-- The characters of an argument, one for each of its bytes. -/
def characters (arg : List UInt8) : Arg := (text arg).toList

/-- `getopt` has no long options. -/
def table : Table where
  optstring := "hwrpt:d:T:D:c:a:lsvbm:j:f:x:Uu:g:".toList
  long := []

def optarg (f : Found) : String := String.ofList (f.optarg.getD [])

/-- The `switch` of `parse_argv`; `none` where the usage is shown and the program exits. -/
def handle (c : Config) (f : Found) : Option Config :=
  match f.val with
  | 'w' => some { c with opts.shouldSyncHwclock := false }
  | 'r' => some { c with opts.shouldNetlink := false }
  | 'U' => some { c with opts.shouldDbus := false }
  | 'p' => some { c with opts.dryRun := true }
  | 't' => some { c with opts.maxTries := atoi (ascii (optarg f)) }
  | 'd' => some { c with opts.waitBetweenTries := atoi (ascii (optarg f)) }
  | 'T' => some { c with opts.subprocessTries := atoi (ascii (optarg f)) }
  | 'D' => some { c with opts.subprocessWaitBetweenTries := atoi (ascii (optarg f)) }
  | 'c' => some { c with opts.basePath := optarg f }
  | 'a' => some { c with opts.steadyStateInterval := atoi (ascii (optarg f)) }
  | 'l' => some { c with opts.shouldLoadDisk := false }
  | 's' => some { c with opts.shouldSaveDisk := false }
  | 'v' => some { c with verbose := true }
  | 'b' => some { c with verboseDebug := true }
  | 'm' => some { c with opts.minSteadyStateInterval := atoi (ascii (optarg f)) }
  | 'j' => some { c with opts.jitter := atoi (ascii (optarg f)) }
  | 'f' => some { c with confFile := some (optarg f) }
  | 'x' => some { c with opts.proxy := some (.text (optarg f)) }
  | 'u' => some { c with user := optarg f }
  | 'g' => some { c with group := optarg f }
  | _ => none

def parseArgv (posixlyCorrect : Bool) (args : List (List UInt8)) (c : Config) : Option Config :=
  ((table.getoptLong posixlyCorrect (args.map characters)).foldlM handle c).map fun c =>
    match table.operands posixlyCorrect (args.map characters) with
    | [] => c
    | command => { c with opts.baseArgv := command.map String.ofList }

/-- The checks of `Options.checkConf`, with the messages of those that fail. -/
def checkConf (opts : Opts) : Except Exit Unit :=
  if opts.maxTries = 0 then .error (.fatal "-t argument must be nonzero")
  else if opts.waitBetweenTries = 0 then .error (.fatal "-d argument must be nonzero")
  else if opts.steadyStateInterval = 0 then .error (.fatal "-a argument must be nonzero")
  else if 4096 ≤ (opts.basePath ++ "/timestamp").length then
    .error (.fatal ("supplied base path is too long: '" ++ opts.basePath ++ "'"))
  else if opts.steadyStateInterval ≤ opts.jitter then
    .error (.fatal ("jitter must be less than steady state interval (" ++ toString opts.jitter ++
      " >= " ++ toString opts.steadyStateInterval ++ ")"))
  else .ok ()

def defaults (b : Built) : Config where
  opts := setConfDefaults b.build
  verbose := false
  verboseDebug := false
  confFile := none
  user := b.unprivUser
  group := b.unprivGroup

/-- `main` up to the options that the daemon starts with; `files` says what can be read
under a name. -/
def configure (b : Built) (posixlyCorrect : Bool) (strerror : String)
    (files : String → Option (List UInt8)) (args : List (List UInt8)) : Except Exit Config := do
  let c ← (parseArgv posixlyCorrect args (defaults b)).elim (.error .usage) .ok
  checkConf c.opts
  let loaded ← (loadConf strerror c.confFile (files (c.confFile.getD b.confFile))
    c.toSettings).mapError .fatal
  checkConf loaded.opts
  return { c with toSettings := { loaded with opts := withDefaultSource loaded.opts } }

section Effective

def onLetter {β : Type} (letter : Char) (value : Found → β) (f : Found) : Option β :=
  if f.val = letter then some (value f) else none

def onKey {β : Type} (key : String) (value : Option (List UInt8) → Option β) (e : ConfEntry) :
    Option β :=
  if text e.key = key then value e.value else none

variable (letters : List Found) (entries : List ConfEntry)

/-- The last entry of the file decides, then the last option on the command line. -/
def number (letter : Char) (key : String) (default : Int) : Int :=
  lastOf (onKey key fun value => value.map atoi)
    (lastOf (onLetter letter fun f => atoi (ascii (optarg f))) default letters) entries

def switch (letter : Char) (given : Bool) (key : String) (default : Bool) : Bool :=
  lastOf (onKey key fun value => some (switchedOn value))
    (lastOf (onLetter letter fun _ => given) default letters) entries

def effective (b : Built) (command : List String) (sources : List Source) : Config where
  opts :=
    let d := setConfDefaults b.build
    { d with
      maxTries := number letters entries 't' "max-tries" d.maxTries
      minSteadyStateInterval :=
        number letters entries 'm' "min-steady-state-interval" d.minSteadyStateInterval
      waitBetweenTries := number letters entries 'd' "wait-between-tries" d.waitBetweenTries
      subprocessTries := number letters entries 'T' "subprocess-tries" d.subprocessTries
      subprocessWaitBetweenTries :=
        number letters entries 'D' "subprocess-wait-between-tries" d.subprocessWaitBetweenTries
      steadyStateInterval := number letters entries 'a' "steady-state-interval" d.steadyStateInterval
      basePath := lastOf (onKey "base-path" fun value => value.map text)
        (lastOf (onLetter 'c' optarg) d.basePath letters) entries
      baseArgv := command
      shouldSyncHwclock := switch letters entries 'w' false "should-sync-hwclock" d.shouldSyncHwclock
      shouldLoadDisk := switch letters entries 'l' false "should-load-disk" d.shouldLoadDisk
      shouldSaveDisk := switch letters entries 's' false "should-save-disk" d.shouldSaveDisk
      shouldNetlink := switch letters entries 'r' false "should-netlink" d.shouldNetlink
      dryRun := switch letters entries 'p' true "dry-run" d.dryRun
      jitter := number letters entries 'j' "jitter" d.jitter
      sources := sources
      -- only on the command line
      proxy := lastOf (onLetter 'x' fun f => some (.text (optarg f))) d.proxy letters
      shouldDbus := lastOf (onLetter 'U' fun _ => false) d.shouldDbus letters
      -- only in the file
      leap := lastOf (onKey "leap" fun value => some (switchedOn value)) d.leap entries }
  verbose := switch letters entries 'v' true "verbose" false
  verboseDebug := lastOf (onLetter 'b' fun _ => true) false letters
  confFile := lastOf (onLetter 'f' fun f => some (optarg f)) none letters
  user := lastOf (onLetter 'u' optarg) b.unprivUser letters
  group := lastOf (onLetter 'g' optarg) b.unprivGroup letters

def refused (f : Found) : Bool := f.val = '?' || f.val = 'h'

def outside : List ConfEntry → List ConfEntry
  | [] => []
  | e :: es =>
      if e.key = ascii "source" then
        have : (es.dropWhile within).length ≤ es.length := (List.dropWhile_suffix within).length_le
        outside (es.dropWhile within).tail
      else e :: outside es
termination_by es => es.length

end Effective

variable {b : Built} {letters : List Found} {entries : List ConfEntry} {command : List String}
  {sources : List Source}

def assign (f : Found) (c : Config) : Config where
  opts :=
    { c.opts with
      maxTries := (onLetter 't' (fun f => atoi (ascii (optarg f))) f).getD c.opts.maxTries
      minSteadyStateInterval :=
        (onLetter 'm' (fun f => atoi (ascii (optarg f))) f).getD c.opts.minSteadyStateInterval
      waitBetweenTries := (onLetter 'd' (fun f => atoi (ascii (optarg f))) f).getD c.opts.waitBetweenTries
      subprocessTries := (onLetter 'T' (fun f => atoi (ascii (optarg f))) f).getD c.opts.subprocessTries
      subprocessWaitBetweenTries :=
        (onLetter 'D' (fun f => atoi (ascii (optarg f))) f).getD c.opts.subprocessWaitBetweenTries
      steadyStateInterval :=
        (onLetter 'a' (fun f => atoi (ascii (optarg f))) f).getD c.opts.steadyStateInterval
      basePath := (onLetter 'c' optarg f).getD c.opts.basePath
      shouldSyncHwclock := (onLetter 'w' (fun _ => false) f).getD c.opts.shouldSyncHwclock
      shouldLoadDisk := (onLetter 'l' (fun _ => false) f).getD c.opts.shouldLoadDisk
      shouldSaveDisk := (onLetter 's' (fun _ => false) f).getD c.opts.shouldSaveDisk
      shouldNetlink := (onLetter 'r' (fun _ => false) f).getD c.opts.shouldNetlink
      dryRun := (onLetter 'p' (fun _ => true) f).getD c.opts.dryRun
      jitter := (onLetter 'j' (fun f => atoi (ascii (optarg f))) f).getD c.opts.jitter
      proxy := (onLetter 'x' (fun f => some (.text (optarg f))) f).getD c.opts.proxy
      shouldDbus := (onLetter 'U' (fun _ => false) f).getD c.opts.shouldDbus }
  verbose := (onLetter 'v' (fun _ => true) f).getD c.verbose
  verboseDebug := (onLetter 'b' (fun _ => true) f).getD c.verboseDebug
  confFile := (onLetter 'f' (fun f => some (optarg f)) f).getD c.confFile
  user := (onLetter 'u' optarg f).getD c.user
  group := (onLetter 'g' optarg f).getD c.group

def handled : List Char :=
  ['w', 'r', 'U', 'p', 't', 'd', 'T', 'D', 'c', 'a', 'l', 's', 'v', 'b', 'm', 'j', 'f', 'x', 'u', 'g']

theorem handle_assign (c : Config) (f : Found) :
    handle c f = if f.val ∈ handled then some (assign f c) else none := by
  obtain ⟨val, value⟩ := f
  rw [handle]
  dsimp only
  split
  case h_21 => rw [if_neg (by simp_all [handled])]
  all_goals
    rw [if_pos (by decide)]
    rfl

theorem assign_effective (f : Found) : assign f (effective letters [] b command sources) =
    effective (letters ++ [f]) [] b command sources := by
  simp only [assign, effective, number, switch, lastOf_nil, lastOf_concat]

def merge (e : ConfEntry) (c : ConfFile.Settings) : ConfFile.Settings where
  opts :=
    { c.opts with
      maxTries := (onKey "max-tries" (fun value => value.map atoi) e).getD c.opts.maxTries
      minSteadyStateInterval := (onKey "min-steady-state-interval" (fun value => value.map atoi) e).getD
        c.opts.minSteadyStateInterval
      waitBetweenTries :=
        (onKey "wait-between-tries" (fun value => value.map atoi) e).getD c.opts.waitBetweenTries
      subprocessTries :=
        (onKey "subprocess-tries" (fun value => value.map atoi) e).getD c.opts.subprocessTries
      subprocessWaitBetweenTries :=
        (onKey "subprocess-wait-between-tries" (fun value => value.map atoi) e).getD
          c.opts.subprocessWaitBetweenTries
      steadyStateInterval :=
        (onKey "steady-state-interval" (fun value => value.map atoi) e).getD c.opts.steadyStateInterval
      basePath := (onKey "base-path" (fun value => value.map text) e).getD c.opts.basePath
      shouldSyncHwclock := (onKey "should-sync-hwclock" (fun value => some (switchedOn value)) e).getD
        c.opts.shouldSyncHwclock
      shouldLoadDisk := (onKey "should-load-disk" (fun value => some (switchedOn value)) e).getD
        c.opts.shouldLoadDisk
      shouldSaveDisk := (onKey "should-save-disk" (fun value => some (switchedOn value)) e).getD
        c.opts.shouldSaveDisk
      shouldNetlink := (onKey "should-netlink" (fun value => some (switchedOn value)) e).getD
        c.opts.shouldNetlink
      dryRun := (onKey "dry-run" (fun value => some (switchedOn value)) e).getD c.opts.dryRun
      jitter := (onKey "jitter" (fun value => value.map atoi) e).getD c.opts.jitter
      leap := (onKey "leap" (fun value => some (switchedOn value)) e).getD c.opts.leap }
  verbose := (onKey "verbose" (fun value => some (switchedOn value)) e).getD c.verbose

theorem loadOption_merge (e : ConfEntry) (c : ConfFile.Settings) : loadOption e c = merge e c := by
  rw [loadOption, merge]
  simp only [onKey]
  generalize text e.key = key
  generalize e.value = value
  split
  case h_16 => cases value <;> simp_all
  all_goals rfl

theorem merge_effective (e : ConfEntry) :
    merge e (effective letters entries b command sources).toSettings =
      (effective letters (entries ++ [e]) b command sources).toSettings := by
  simp only [merge, effective, number, switch, lastOf_concat]

theorem checkConf_ok {opts : Opts} : checkConf opts = .ok () ↔ Options.checkConf opts = true := by
  rw [checkConf]
  simp [ite_error, Options.checkConf, and_assoc]

def lettersOf (posixlyCorrect : Bool) (args : List (List UInt8)) : List Found :=
  table.getoptLong posixlyCorrect (args.map characters)

def baseArgv (b : Built) (posixlyCorrect : Bool) (args : List (List UInt8)) : List String :=
  match table.operands posixlyCorrect (args.map characters) with
  | [] => (setConfDefaults b.build).baseArgv
  | command => command.map String.ofList

theorem parseArgv_effective (posix : Bool) (args : List (List UInt8)) :
    parseArgv posix args (defaults b) =
      if ∀ f ∈ lettersOf posix args, f.val ∈ handled then
        some (effective (lettersOf posix args) [] b (baseArgv b posix args) [])
      else none := by
  have hrun := @foldlM_view _ _ handle (·.val ∈ handled) _
    (fun letters => effective letters [] b (setConfDefaults b.build).baseArgv []) ?_ []
    (lettersOf posix args)
  · change (lettersOf posix args).foldlM handle (defaults b) = _ at hrun
    rw [parseArgv, baseArgv]
    change (((lettersOf posix args).foldlM handle (defaults b)).map _) = _
    rw [hrun]
    split_ifs
    · cases table.operands posix (args.map characters) <;> rfl
    · rfl
  · intro letters f
    rw [handle_assign, assign_effective]

/-- Outside of the stanzas each entry is merged; a stanza only adds a source. -/
theorem loadEntries_outside {es : List ConfEntry} {c' : ConfFile.Settings}
    (h : loadEntries es (effective letters entries b command sources).toSettings = .ok c') :
    c' = (effective letters (entries ++ outside es) b command c'.opts.sources).toSettings := by
  induction es using outside.induct generalizing entries sources with
  | case1 =>
      rw [loadEntries] at h
      obtain rfl := Except.ok.inj h
      rw [outside, List.append_nil]
      rfl
  | case2 e es hkey _ ih =>
      rw [loadEntries_source hkey] at h
      obtain ⟨-, hparse⟩ | ⟨-, fatal, hparse⟩ :=
        parseSource_stanza (effective letters entries b command sources).toSettings es
      · rw [hparse] at h
        rw [outside, if_pos hkey]
        exact ih h
      · rw [hparse] at h
        cases h
  | case3 e es hkey ih =>
      rw [loadEntries, if_neg hkey, loadOption_merge, merge_effective] at h
      have hrest := ih h
      rw [List.append_assoc, List.singleton_append] at hrest
      rwa [outside, if_neg hkey]

def stanzaSources (es : List ConfEntry) : List Source :=
  (stanzas es).mapIdx fun i st => st.source i

theorem loadEntries_effective {es : List ConfEntry} {c' : ConfFile.Settings} :
    loadEntries es (effective letters [] b command []).toSettings = .ok c' ↔
      (∀ st ∈ stanzas es, st.Complete) ∧
        c' = (effective letters (outside es) b command (stanzaSources es)).toSettings := by
  have hload := loadEntries_stanzas es (effective letters [] b command []).toSettings
  have hsources : ([] : List Source) ++ (stanzas es).mapIdx (fun i st => st.source (0 + i)) =
      stanzaSources es := by
    simp [stanzaSources]
  obtain ⟨hall, found, hok, hfound⟩ | ⟨hsome, fatal, herror⟩ := hload
  · have heffective := loadEntries_outside hok
    rw [hfound.trans hsources, List.nil_append] at heffective
    rw [hok, Except.ok.injEq, ← heffective]
    exact ⟨fun he => ⟨hall, he.symm⟩, fun ⟨_, he⟩ => he.symm⟩
  · rw [herror]
    exact iff_of_false (fun he => by cases he) fun h => hsome h.1

section Configure

variable (b : Built) (posixlyCorrect : Bool) (files : String → Option (List UInt8))
variable (args : List (List UInt8))

def confFile : Option String := (effective (lettersOf posixlyCorrect args) [] b [] []).confFile

def contents : Option (List UInt8) := files ((confFile b posixlyCorrect args).getD b.confFile)

def entriesOf : List ConfEntry := (contents b posixlyCorrect files args).elim [] confParse

structure Accepted : Prop where
  letters : ∀ f ∈ lettersOf posixlyCorrect args, f.val ∈ handled
  /-- the command line has to do without the file -/
  alone : Options.checkConf (effective (lettersOf posixlyCorrect args) [] b [] []).opts = true
  present : contents b posixlyCorrect files args = none → confFile b posixlyCorrect args = none
  parsed : ∀ f, contents b posixlyCorrect files args = some f → confParse f ≠ []
  complete : ∀ st ∈ stanzas (entriesOf b posixlyCorrect files args), st.Complete
  together : Options.checkConf (effective (lettersOf posixlyCorrect args)
    (outside (entriesOf b posixlyCorrect files args)) b [] []).opts = true

def configured : Config :=
  let es := entriesOf b posixlyCorrect files args
  effective (lettersOf posixlyCorrect args) (outside es) b (baseArgv b posixlyCorrect args)
    (if stanzaSources es = [] then
      [⟨defaultHost, defaultPort, some (.text defaultProxy), 0⟩] else stanzaSources es)

variable {b posixlyCorrect files args} {strerror : String} {c : Config}

theorem loadConf_effective {strerror : String} {named : Option String}
    {file : Option (List UInt8)} {c' : ConfFile.Settings} :
    loadConf strerror named file (effective letters [] b command []).toSettings = .ok c' ↔
      (file = none → named = none) ∧ (∀ f, file = some f → confParse f ≠ []) ∧
        (∀ st ∈ stanzas (file.elim [] confParse), st.Complete) ∧
        c' = (effective letters (outside (file.elim [] confParse)) b command
          (stanzaSources (file.elim [] confParse))).toSettings := by
  cases file with
  | none =>
      have hentries : outside [] = [] ∧ stanzas [] = [] := by
        rw [outside, stanzas]
        exact ⟨rfl, rfl⟩
      cases named with
      | none => simpa [loadConf, stanzaSources, hentries] using eq_comm
      | some name => simp [loadConf]
  | some f =>
      rw [loadConf, loadParsed]
      by_cases hnil : confParse f = []
      · simp [hnil]
      · rw [if_neg hnil, loadEntries_effective]
        simp [hnil]

theorem withDefaultSource_effective :
    withDefaultSource (effective letters entries b command sources).opts =
      (effective letters entries b command (if sources = [] then
        [⟨defaultHost, defaultPort, some (.text defaultProxy), 0⟩] else sources)).opts := by
  cases sources <;> rfl

theorem mapError_ok {ε ε' α : Type} {f : ε → ε'} {x : Except ε α} {a : α} :
    x.mapError f = .ok a ↔ x = .ok a := by
  cases x <;> simp [Except.mapError]

/-- The daemon starts where its arguments and its file are accepted, and then with each
option as the file has it last, or else the command line, or else the build. -/
theorem configure_ok : configure b posixlyCorrect strerror files args = .ok c ↔
    Accepted b posixlyCorrect files args ∧ c = configured b posixlyCorrect files args := by
  rw [configure, parseArgv_effective]
  by_cases hletters : ∀ f ∈ lettersOf posixlyCorrect args, f.val ∈ handled
  · rw [if_pos hletters]
    constructor
    · intro h
      obtain ⟨c₁, hparse, h⟩ := bind_ok.mp h
      obtain rfl := Except.ok.inj hparse
      obtain ⟨_, halone, h⟩ := bind_ok.mp h
      obtain ⟨loaded, hload, h⟩ := bind_ok.mp h
      obtain ⟨_, htogether, h⟩ := bind_ok.mp h
      obtain ⟨hpresent, hparsed, hcomplete, rfl⟩ := loadConf_effective.mp (mapError_ok.mp hload)
      refine ⟨⟨hletters, checkConf_ok.mp halone, hpresent, hparsed, hcomplete,
        checkConf_ok.mp htogether⟩, ?_⟩
      · rw [withDefaultSource_effective] at h
        exact (Except.ok.inj h).symm
    · rintro ⟨⟨-, halone, hpresent, hparsed, hcomplete, htogether⟩, rfl⟩
      refine bind_ok.mpr ⟨_, rfl, bind_ok.mpr ⟨(), checkConf_ok.mpr halone, bind_ok.mpr ⟨_,
        mapError_ok.mpr (loadConf_effective.mpr ⟨hpresent, hparsed, hcomplete, rfl⟩),
        bind_ok.mpr ⟨(), checkConf_ok.mpr htogether, ?_⟩⟩⟩⟩
      · rw [withDefaultSource_effective]
        rfl
  · rw [if_neg hletters]
    exact iff_of_false (fun he => by cases he) fun h => hletters h.1.letters

end Configure

end Tlsdate.DaemonOptions
