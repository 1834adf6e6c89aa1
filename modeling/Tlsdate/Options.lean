import Tlsdate.TimeSource

namespace Tlsdate.Options

open TimeSource

/-- A `char *` proxy: a string of its own, or the address of the state's
`dynamic_proxy` buffer. -/
inductive ProxyRef
  | text (url : String)
  | dynamic
  deriving DecidableEq, Repr

/-- `struct source`; the `next` pointer is the tail of the list it stands in. -/
structure Source where
  host : String
  port : String
  proxy : Option ProxyRef
  id : Nat
  deriving DecidableEq, Repr

/-- `struct opts`, with the fields that the daemon, the setter and the monitor
read. A pointer into the source list is the list from that node on, and NULL is
the empty list. Strings have one character for each byte. -/
structure Opts where
  maxTries : Int
  minSteadyStateInterval : Int
  waitBetweenTries : Int
  subprocessTries : Int
  subprocessWaitBetweenTries : Int
  steadyStateInterval : Int
  continuityInterval : Int
  basePath : String
  baseArgv : List String
  shouldSyncHwclock : Bool
  shouldLoadDisk : Bool
  shouldSaveDisk : Bool
  shouldNetlink : Bool
  dryRun : Bool
  jitter : Int
  sources : List Source
  curSource : List Source
  proxy : Option ProxyRef
  leap : Bool
  shouldDbus : Bool

def defaultHost : String := "google.com"
def defaultPort : String := "443"
def defaultProxy : String := "none"

def setConfDefaults (build : Build) : Opts where
  maxTries := 10
  minSteadyStateInterval := 60 * 60 * 24
  waitBetweenTries := 10
  subprocessTries := 10
  subprocessWaitBetweenTries := 10
  steadyStateInterval := 60 * 60 * 24
  continuityInterval := 60 * 60 * 4
  basePath := "/var/cache/tlsdated"
  baseArgv := [build.tlsdate, "-H", defaultHost]
  shouldSyncHwclock := true
  shouldLoadDisk := true
  shouldSaveDisk := true
  shouldNetlink := true
  dryRun := false
  jitter := 0
  sources := []
  curSource := []
  proxy := none
  leap := false
  shouldDbus := true

/-- The checks of `check_conf`; a failed one is fatal. PATH_MAX bounds the
timestamp path. -/
def checkConf (opts : Opts) : Bool :=
  opts.maxTries != 0 && opts.waitBetweenTries != 0 && opts.steadyStateInterval != 0 &&
    decide ((opts.basePath ++ "/timestamp").length < 4096) &&
    decide (opts.jitter < opts.steadyStateInterval)

def withDefaultSource (opts : Opts) : Opts :=
  if opts.sources = [] then
    { opts with sources := [⟨defaultHost, defaultPort, some (.text defaultProxy), 0⟩] }
  else opts

end Tlsdate.Options
