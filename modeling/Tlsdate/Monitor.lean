import Tlsdate.DaemonState

namespace Tlsdate.Monitor

open TimeSource Options DaemonState

/-- Choose the next source in the list; at the end start over. -/
def nextSource (opts : Opts) : List Source :=
  match opts.curSource with
  | [] | [_] => opts.sources
  | _ :: rest => rest

def proxyUrl (dynamicProxy : String) : ProxyRef → String
  | .text url => url
  | .dynamic => dynamicProxy

def proxyArgs (dynamicProxy : String) (opts : Opts) (src : Source) : List String :=
  match opts.proxy.or src.proxy with
  | none => []
  | some proxy =>
      if proxyUrl dynamicProxy proxy ≠ "" then ["-x", proxyUrl dynamicProxy proxy] else []

/-- `build_argv` moves `cur_source` on and returns the new arguments, or NULL
when there are too many. The source list is asserted to be non-empty. -/
def buildArgv (dynamicProxy : String) (opts : Opts) : Option (List String) × Opts :=
  let opts := { opts with curSource := nextSource opts }
  match opts.curSource with
  | [] => (none, opts)
  | src :: _ =>
      if opts.baseArgv.length > 1024 then (none, opts)
      else
        (some (opts.baseArgv ++ ["-H", src.host, "-p", src.port] ++
          proxyArgs dynamicProxy opts src ++ ["-Vraw", "-n"] ++
          if opts.leap then ["-l"] else []), opts)

/-- The child works on its own copy of the state, which is lost when it
executes the arguments or exits. -/
def child (s : State) : Option (List String) := (buildArgv s.dynamicProxy s.opts).1

/-- `tlsdate`: in the parent all that is left of the launch is the child's
process id. -/
def tlsdate (fork : Option Nat) (s : State) : Int × State × List Output :=
  match fork with
  | none => (-1, s, [])
  | some pid => (0, { s with tlsdatePid := pid }, [.launch pid (child s)])

end Tlsdate.Monitor
