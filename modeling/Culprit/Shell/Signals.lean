/-!
Signals by name and number, and what is said of a program that one of them ended. The end of a
script counts as signal zero.
-/

namespace Culprit.Shell.Signals

/-- From zero on; a number stands for a signal without a name. -/
def names : List String :=
  ["EXIT", "HUP", "INT", "QUIT", "ILL", "TRAP", "ABRT", "BUS", "FPE", "KILL", "USR1", "SEGV",
    "USR2", "PIPE", "ALRM", "TERM", "16", "CHLD", "CONT", "STOP", "TSTP", "TTIN", "TTOU", "URG",
    "XCPU", "XFSZ", "VTALRM", "PROF", "WINCH", "IO", "PWR", "SYS", "32", "33", "RTMIN"] ++
    (List.range 15).map (fun i => "RTMIN+" ++ toString (i + 1)) ++
    (List.range 14).map (fun i => "RTMAX-" ++ toString (14 - i)) ++ ["RTMAX"]

/-- How many there are, with the end of a script. -/
def count : Nat := 65

def nameOf (n : Nat) : String :=
  names.getD n ""

def isNumber (s : String) : Bool :=
  !s.isEmpty && s.toList.all Char.isDigit

/-- A signal by its number, or by its name in any case; names count from a number on. -/
def ofText? (least : Nat) (s : String) : Option Nat :=
  if isNumber s then (s.toNat?).filter (· < count)
  else
    let upper := s.map Char.toUpper
    ((List.range count).filter (least ≤ ·)).find? fun n => nameOf n = upper

/-- What the shell says of a program that a signal ended; of two of them it says nothing. -/
def text? : Nat → Option String
  | 1 => some "Hangup"
  | 3 => some "Quit"
  | 4 => some "Illegal instruction"
  | 5 => some "Trace/breakpoint trap"
  | 6 => some "Aborted"
  | 7 => some "Bus error"
  | 8 => some "Floating point exception"
  | 9 => some "Killed"
  | 10 => some "User defined signal 1"
  | 11 => some "Segmentation fault"
  | 12 => some "User defined signal 2"
  | 14 => some "Alarm clock"
  | 15 => some "Terminated"
  | 16 => some "Stack fault"
  | 24 => some "CPU time limit exceeded"
  | 25 => some "File size limit exceeded"
  | 26 => some "Virtual timer expired"
  | 27 => some "Profiling timer expired"
  | 29 => some "I/O possible"
  | 30 => some "Power failure"
  | 31 => some "Bad system call"
  | n => if 34 ≤ n then some ("Real-time signal " ++ toString (n - 34)) else none

end Culprit.Shell.Signals
