import Actors.Event
import Actors.SpawnOptions

/-! Settings of the runtime that runs the drivers, and the constants behind their defaults. -/
namespace Actors

def mailboxCapacity : Nat := 8

structure Settings where
  eventInterval : Nat := 61
  globalQueueInterval : Nat := 31
  maxBlockingThreads : Nat := 512
  shutdownSeconds : Nat := 30
  keepAliveSeconds : Nat := 10
  stackSize : Nat := 2097152
  workerThreads : Nat := 1
  showsFile : Bool := false
  showsLine : Bool := false
  showsName : Bool := false
  showsThread : Bool := true
  isVerbose : Bool := false
  isVeryVerbose : Bool := false
  deriving DecidableEq, Repr, Inhabited

namespace Settings

private def seconds (n : Nat) : String := toString n ++ "s"

def filter (s : Settings) : Level :=
  if s.isVeryVerbose then .trace else if s.isVerbose then .debug else .info

def text (s : Settings) : String :=
  Text.Layout.compact.record "RuntimeConfig"
    [("rt_event_interval", toString s.eventInterval),
      ("rt_global_queue_interval", toString s.globalQueueInterval),
      ("rt_max_blocking_threads", toString s.maxBlockingThreads),
      ("rt_shutdown_timeout", seconds s.shutdownSeconds),
      ("rt_thread_keep_alive", seconds s.keepAliveSeconds),
      ("rt_thread_stack_size", toString s.stackSize),
      ("rt_worker_threads", toString s.workerThreads),
      ("tracing_source_file", toString s.showsFile),
      ("tracing_source_line", toString s.showsLine),
      ("tracing_source_name", toString s.showsName),
      ("tracing_thread_info", toString s.showsThread),
      ("tracing_verbose", toString s.isVerbose),
      ("tracing_very_verbose", toString s.isVeryVerbose)]

/-- The constants in a row: trapping by default, tag bits, worker threads, event interval, queue
interval, blocking threads, keep alive, stack, shutdown, mailbox capacity. -/
def constants (s : Settings) : String :=
  String.intercalate " "
    [toString ({} : SpawnOptions).trap, toString Identity.tagBits, toString s.workerThreads,
      toString s.eventInterval, toString s.globalQueueInterval, toString s.maxBlockingThreads,
      seconds s.keepAliveSeconds, toString s.stackSize, seconds s.shutdownSeconds,
      toString mailboxCapacity]

end Settings

end Actors
