import CanvasScript.Host
import CanvasScript.Text.Octets

namespace CanvasScript

open Text (Octets)

inductive Termination where
  | exited (status : Nat)
  | killed (signal : Nat)
deriving DecidableEq, Repr

namespace Termination

def signalNames : List String :=
  ["SIGHUP", "SIGINT", "SIGQUIT", "SIGILL", "SIGTRAP", "SIGABRT", "SIGBUS", "SIGFPE", "SIGKILL",
    "SIGUSR1", "SIGSEGV", "SIGUSR2", "SIGPIPE", "SIGALRM", "SIGTERM", "SIGSTKFLT", "SIGCHLD",
    "SIGCONT", "SIGSTOP", "SIGTSTP", "SIGTTIN", "SIGTTOU", "SIGURG", "SIGXCPU", "SIGXFSZ",
    "SIGVTALRM", "SIGPROF", "SIGWINCH", "SIGIO", "SIGPWR", "SIGSYS"]

def signalName? (n : Nat) : Option String := if n = 0 then none else signalNames[n - 1]?

def text : Termination → String
  | exited status => s!"exit status: {status}"
  | killed signal => s!"signal: {signal}" ++ ((signalName? signal).map fun n => s!" ({n})").getD ""

end Termination

structure CommandOutcome (σ : Type) where
  disk : σ
  termination : Termination
  out : Octets
  err : Octets

/-- The files and the shell that the command line finds are given from outside, and so are the words
in which they fail. A directory is listed in any order, with what in it is a directory itself. A
command that cannot even be started fails; else it leaves a disk and has written to two streams. -/
class OperatingSystem (σ : Type) where
  readText : σ → String → Except String String
  writeText : σ → String → String → Except String σ
  listDirectory : σ → String → Except String (List (Octets × Bool))
  isThere : σ → String → Bool
  runCommand : σ → List (String × String) → String → Except String (CommandOutcome σ)

end CanvasScript
