import Tlsdate.LinePieces
import Tlsdate.PacProxy
import Tlsdate.ProxySetup

namespace Tlsdate.ConfFile

open Options LinePieces
open ProxyBio (ascii cString isSpace skipSpace)
open PacProxy (text)
open ProxySetup (atoi)

section Parse

def confMaxLine : Nat := 16384

/-- `struct conf_entry`; the `next` pointer is the tail of the list it stands in. -/
structure ConfEntry where
  key : List UInt8
  value : Option (List UInt8)
  deriving DecidableEq, Repr

/-- `fgets` with a buffer of `size` bytes: what it stores before its NUL, and
what is left of the file. -/
def fgets (size : Nat) (f : List UInt8) : Option (List UInt8 × List UInt8) :=
  if f = [] then none else some (piece 10 (size - 1) f)

/-- `strtok`: the token, and the string that the next call goes on with. -/
def strtok (delim s : List UInt8) : Option (List UInt8 × List UInt8) :=
  match s.dropWhile delim.contains with
  | [] => none
  | token => some (token.takeWhile fun c => !delim.contains c,
      (token.dropWhile fun c => !delim.contains c).tail)

def stripNewlines (line : List UInt8) : List UInt8 :=
  (line.takeWhile (· != 10)).takeWhile (· != 13)

def isIgnoredLine (line : List UInt8) : Bool := line.isEmpty || line.head? == some 35

/-- The text of a line, as `conf_parse` looks at it. -/
def lineStart (buf : List UInt8) : List UInt8 := skipSpace (stripNewlines (cString buf))

def confEntry (buf : List UInt8) : Option ConfEntry :=
  if isIgnoredLine (lineStart buf) then none
  else
    (strtok (ascii " \t") (lineStart buf)).map fun p =>
      ⟨p.1, (strtok [] p.2).map fun q => skipSpace q.1⟩

theorem fgets_shorter {f buf rest : List UInt8} (h : fgets confMaxLine f = some (buf, rest)) :
    rest.length < f.length := by
  rw [fgets] at h
  split_ifs at h with hf
  obtain ⟨-, rfl⟩ := Prod.mk.inj (Option.some.inj h)
  exact piece_shorter 10 16382 hf

/-- `conf_parse`, where memory does not run out; no entries are NULL. -/
def confParse (f : List UInt8) : List ConfEntry :=
  match h : fgets confMaxLine f with
  | none => []
  | some (buf, rest) =>
      have := fgets_shorter h
      (confEntry buf).toList ++ confParse rest
termination_by f.length

end Parse

section Load

/-- What `load_conf` sets: the options, and the global `verbose`. -/
structure Settings where
  opts : Opts
  verbose : Bool

/-- `e->value ? !strcmp (e->value, "yes") : 1` -/
def switchedOn : Option (List UInt8) → Bool
  | none => true
  | some value => value == ascii "yes"

def loadOption (e : ConfEntry) (c : Settings) : Settings :=
  match text e.key, e.value with
  | "max-tries", some value => { c with opts.maxTries := atoi value }
  | "min-steady-state-interval", some value =>
      { c with opts.minSteadyStateInterval := atoi value }
  | "wait-between-tries", some value => { c with opts.waitBetweenTries := atoi value }
  | "subprocess-tries", some value => { c with opts.subprocessTries := atoi value }
  | "subprocess-wait-between-tries", some value =>
      { c with opts.subprocessWaitBetweenTries := atoi value }
  | "steady-state-interval", some value => { c with opts.steadyStateInterval := atoi value }
  | "base-path", some value => { c with opts.basePath := text value }
  | "should-sync-hwclock", value => { c with opts.shouldSyncHwclock := switchedOn value }
  | "should-load-disk", value => { c with opts.shouldLoadDisk := switchedOn value }
  | "should-save-disk", value => { c with opts.shouldSaveDisk := switchedOn value }
  | "should-netlink", value => { c with opts.shouldNetlink := switchedOn value }
  | "dry-run", value => { c with opts.dryRun := switchedOn value }
  | "jitter", some value => { c with opts.jitter := atoi value }
  | "verbose", value => { c with verbose := switchedOn value }
  | "leap", value => { c with opts.leap := switchedOn value }
  | _, _ => c

def addSourceToConf (host port : List UInt8) (proxy : Option (List UInt8)) (c : Settings) :
    Settings :=
  let id := match c.opts.sources.getLast? with
    | none => 0
    | some s => s.id + 1
  { c with opts.sources := c.opts.sources ++
      [⟨text host, text port, proxy.map fun url => .text (text url), id⟩] }

/-- The end of `parse_source`, with the last values that it has found. An error
is the message of a fatal exit. -/
def closeSource (c : Settings) (host port proxy : Option (List UInt8)) : Except String Settings :=
  match host, port with
  | some host, some port => .ok (addSourceToConf host port proxy c)
  | _, _ => .error "incomplete source stanza (needs host, port)"

/-- `parse_source` from the entry after `source` on, with what it has found so
far; it returns what follows the `end`. -/
def parseSource (c : Settings) (host port proxy : Option (List UInt8)) :
    List ConfEntry → Except String (Settings × List ConfEntry)
  | [] => .error "unclosed source stanza"
  | e :: es =>
      match text e.key with
      | "end" => (closeSource c host port proxy).map fun c => (c, es)
      | "host" => parseSource c e.value port proxy es
      | "port" => parseSource c host e.value proxy es
      | "proxy" => parseSource c host port e.value es
      | key => .error ("malformed config: '" ++ key ++ "' in source stanza")

theorem parseSource_shorter {c c' : Settings} {host port proxy : Option (List UInt8)}
    {es rest : List ConfEntry} (h : parseSource c host port proxy es = .ok (c', rest)) :
    rest.length < es.length := by
  induction es generalizing host port proxy with
  | nil => cases h
  | cons e es ih =>
      have hlater (host port proxy : Option (List UInt8))
          (h : parseSource c host port proxy es = .ok (c', rest)) :
          rest.length < (e :: es).length := (ih h).trans (Nat.lt_succ_self _)
      rw [parseSource] at h
      split at h
      next =>
        cases hclose : closeSource c host port proxy with
        | error fatal =>
            rw [hclose] at h
            cases h
        | ok c =>
            rw [hclose] at h
            cases h
            exact Nat.lt_succ_self _
      · exact hlater _ _ _ h
      · exact hlater _ _ _ h
      · exact hlater _ _ _ h
      · cases h

def loadEntries : List ConfEntry → Settings → Except String Settings
  | [], c => .ok c
  | e :: es, c =>
      if e.key = ascii "source" then
        match h : parseSource c none none none es with
        | .error fatal => .error fatal
        | .ok (c', rest) =>
            have := parseSource_shorter h
            loadEntries rest c'
      else loadEntries es (loadOption e c)
termination_by es => es.length

/-- `load_conf` with what `conf_parse` returns; NULL is fatal. `strerror` is what `errno`
reads as then, whatever set it last. -/
def loadParsed (strerror : String) (es : List ConfEntry) (c : Settings) : Except String Settings :=
  if es = [] then .error ("can't parse config file: " ++ strerror) else loadEntries es c

/-- `load_conf`, where `named` is the file that was asked for, if any: only that has to be
there. -/
def loadConf (strerror : String) (named : Option String) (file : Option (List UInt8))
    (c : Settings) : Except String Settings :=
  match file, named with
  | some f, _ => loadParsed strerror (confParse f) c
  | none, some name => .error ("can't open conf file '" ++ name ++ "': " ++ strerror)
  | none, none => .ok c

end Load

end Tlsdate.ConfFile
