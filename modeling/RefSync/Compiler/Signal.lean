/-
Signals and how a process ends. A signal has a number and a name; a process that one of
them ends has that number in place of a code.
-/

namespace RefSync.Compiler

/-- How a process ended. -/
inductive Ending where
  | exited (code : Nat)
  | signalled (signal : Nat)
deriving DecidableEq, Repr

/-- The code of an ended process; that of a signal is negative. -/
def Ending.code : Ending → Int
  | .exited code => code
  | .signalled signal => -signal

/-- The status that another process sees: 128 and more stand for signals. -/
def Ending.status : Ending → Nat
  | .exited code => code
  | .signalled signal => 128 + signal

namespace Signal

def interrupt : Nat := 2
def kill : Nat := 9
def pipe : Nat := 13
def terminate : Nat := 15

/-- The names of signals from the first one on; the end of a process has number zero. -/
def names : List String :=
  ["EXIT", "HUP", "INT", "QUIT", "ILL", "TRAP", "ABRT", "BUS", "FPE", "KILL", "USR1", "SEGV",
    "USR2", "PIPE", "ALRM", "TERM", "STKFLT", "CHLD", "CONT", "STOP", "TSTP", "TTIN", "TTOU",
    "URG", "XCPU", "XFSZ", "VTALRM", "PROF", "WINCH", "POLL", "PWR", "SYS"]

/-- Signals that do nothing to a process that does nothing about them. -/
def isHarmless (signal : Nat) : Bool :=
  [17, 18, 23, 28].contains signal

/-- What is said of a process that a signal ended, unless that is expected. -/
def message? : Nat → Option String
  | 1 => some "Hangup"
  | 3 => some "Quit"
  | 4 => some "Illegal instruction"
  | 5 => some "Trace/breakpoint trap"
  | 6 => some "Aborted"
  | 7 => some "Bus error"
  | 8 => some "Floating point exception"
  | 9 => some "Killed"
  | 10 => some "User defined signal 1"
  | 11 => some "Segmentation fault"
  | 12 => some "User defined signal 2"
  | 14 => some "Alarm clock"
  | 15 => some "Terminated"
  | _ => none

end Signal
end RefSync.Compiler
