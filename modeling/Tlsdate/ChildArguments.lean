import Tlsdate.Monitor
import Tlsdate.PacProxy
import Tlsdate.TlsdateMain

namespace Tlsdate.ChildArguments

open Getopt Options Monitor
open PacProxy (ProxyUri helperProxy parseProxyUri)
open TlsdateMain (Settings HelperSettings table run defaults readArguments)

variable {cert : Arg} {posix : Bool} {c : Settings} {opts : Opts} {src : Source}

def bytes (s : Arg) : List UInt8 := s.map fun c => UInt8.ofNat c.toNat

def proxyOf (proxy : Option Arg) : Except String (Option ProxyUri) :=
  match proxy with
  | none => .ok none
  | some url => (parseProxyUri (bytes url)).map some

def childProxy (args : List String) (given : Option Arg) : Option Arg :=
  match args with
  | ["-x", url] => some url.toList
  | _ => given

def childSettings (dynamicProxy : String) (opts : Opts) (src : Source) (c : Settings) : Settings :=
  { c with
    host := some src.host.toList
    port := some src.port.toList
    proxy := childProxy (proxyArgs dynamicProxy opts src) c.proxy
    showtime := 2
    setclock := false
    leap := c.leap || opts.leap }

theorem proxyArgs_cases (dynamicProxy : String) (opts : Opts) (src : Source) :
    proxyArgs dynamicProxy opts src = [] ∨
      ∃ url, proxyArgs dynamicProxy opts src = ["-x", url] := by
  rw [proxyArgs]
  split
  next => exact Or.inl rfl
  next =>
    split_ifs
    · exact Or.inr ⟨_, rfl⟩
    · exact Or.inl rfl

theorem helperProxy_eq (dynamicProxy : String) (opts : Opts) (src : Source) :
    helperProxy (proxyArgs dynamicProxy opts src) =
      proxyOf (if childProxy (proxyArgs dynamicProxy opts src) none = some "none".toList then none
        else childProxy (proxyArgs dynamicProxy opts src) none) := by
  obtain hproxy | ⟨url, hproxy⟩ := proxyArgs_cases dynamicProxy opts src
  · rw [hproxy]
    rfl
  · rw [hproxy]
    by_cases hurl : url = "none"
    · subst hurl
      rfl
    · have hlist : some url.toList ≠ some "none".toList := fun h =>
        hurl (String.toList_injective (Option.some.inj h))
      rw [helperProxy, if_neg hurl, childProxy, if_neg hlist]
      rfl

theorem run_added (dynamicProxy : String) (opts : Opts) (src : Source) (c : Settings) :
    run (table.getoptLong posix ((["-H", src.host, "-p", src.port] ++
        proxyArgs dynamicProxy opts src ++ ["-Vraw", "-n"] ++
          if opts.leap then ["-l"] else []).map String.toList)) c =
      some (childSettings dynamicProxy opts src c) := by
  rw [childSettings]
  obtain hproxy | ⟨url, hproxy⟩ := proxyArgs_cases dynamicProxy opts src
  all_goals
    rw [hproxy]
    cases opts.leap with
    | false =>
        rw [Bool.or_false]
        rfl
    | true =>
        rw [Bool.or_true]
        rfl

/-- The helper of a child is told the host, the port and the proxy of the source whose
turn it is, to leave the clock alone and to show the raw time, where the daemon's command
line is one that lets it run. -/
theorem buildArgv_read (dynamicProxy : String) {name : String} {base : List String}
    {rest : List Source} (hnext : nextSource opts = src :: rest) (hbase : opts.baseArgv = name :: base)
    (hlen : opts.baseArgv.length ≤ 1024) (hoptions : table.Options (base.map String.toList))
    (hrun : run (table.getoptLong posix (base.map String.toList)) (defaults cert) = some c)
    (hprotocol : c.protocol.isSome) (hcert : c.caCertContainer.isSome) :
    ∃ argv helper, (buildArgv dynamicProxy opts).1 = some argv ∧
      (TlsdateMain.tlsdate cert posix (argv.tail.map String.toList)).bind readArguments =
        some helper ∧
      helper.host = src.host.toList ∧ helper.port = src.port.toList ∧ helper.setclock = false ∧
      helper.showtimeRaw = true ∧ helper.leap = (c.leap || opts.leap) ∧
      (c.proxy = none → helperProxy (proxyArgs dynamicProxy opts src) = proxyOf helper.proxy) := by
  obtain ⟨protocol, hprotocol⟩ := Option.isSome_iff_exists.mp hprotocol
  obtain ⟨container, hcert⟩ := Option.isSome_iff_exists.mp hcert
  have hbuild : (buildArgv dynamicProxy opts).1 = some (name :: (base ++
      (["-H", src.host, "-p", src.port] ++ proxyArgs dynamicProxy opts src ++ ["-Vraw", "-n"] ++
        if opts.leap then ["-l"] else []))) := by
    rw [buildArgv]
    simp only [hnext]
    rw [if_neg (Nat.not_lt.mpr hlen), hbase]
    simp [proxyArgs]
  refine ⟨_, (childSettings dynamicProxy opts src c).forHelper src.host.toList src.port.toList
    protocol container, hbuild, ?_, rfl, rfl, rfl, rfl, rfl, ?_⟩
  · rw [List.tail_cons, List.map_append, TlsdateMain.tlsdate, hoptions.getoptLong_append,
      TlsdateMain.run_append, hrun, Option.bind_some, run_added, Option.map_some, Option.bind_some]
    exact TlsdateMain.readArguments_execlp rfl rfl hprotocol hcert
  · intro hnone
    rw [helperProxy_eq, Settings.forHelper, childSettings, hnone]

end Tlsdate.ChildArguments
