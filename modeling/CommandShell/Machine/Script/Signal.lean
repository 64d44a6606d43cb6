import CommandShell.Machine.Script.Process

/-! Signals: their names, what they do, and which of them a process acts upon itself. -/
namespace CommandShell
namespace Script
namespace Signal

def firstNames : List String :=
  ["HUP","INT","QUIT","ILL","TRAP","ABRT","BUS","FPE","KILL","USR1","SEGV","USR2",
    "PIPE","ALRM","TERM","16","CHLD","CONT","STOP","TSTP","TTIN","TTOU","URG","XCPU",
    "XFSZ","VTALRM","PROF","WINCH","IO","PWR","SYS","32","33","RTMIN"]

/-- The names of all signals; zero stands for the end of a process. -/
def names : List String :=
  "EXIT" :: firstNames ++ (List.range 15).map (fun n => "RTMIN+" ++ toString (n + 1))
    ++ (List.range 14).map (fun n => "RTMAX-" ++ toString (14 - n)) ++ ["RTMAX"]

def name (n : Nat) : String := names[n]?.getD (toString n)

def read? (text : String) : Option Nat :=
  if text ≠ "" ∧ text.toList.all Char.isDigit then
    text.toNat?.filter (· ≤ 64)
  else
    let upper := text.toList.map Char.toUpper
    names.findIdx? fun name => name.toList = upper

/-- Signals that do nothing to a process that has no use for them. -/
def isIgnored (n : Nat) : Bool := [0,17,18,19,20,21,22,23,28].contains n

def report (n : Nat) : Option String :=
  match n with
  | 1 => some "Hangup"
  | 2 | 13 => none
  | 3 => some "Quit"
  | 4 => some "Illegal instruction"
  | 5 => some "Trace/breakpoint trap"
  | 6 => some "Aborted"
  | 7 => some "Bus error"
  | 8 => some "Floating point exception"
  | 9 => some "Killed"
  | 10 => some "User defined signal 1"
  | 11 => some "Segmentation fault"
  | 12 => some "User defined signal 2"
  | 14 => some "Alarm clock"
  | 15 => some "Terminated"
  | 16 => some "Stack fault"
  | 24 => some "CPU time limit exceeded"
  | 25 => some "File size limit exceeded"
  | 26 => some "Virtual timer expired"
  | 27 => some "Profiling timer expired"
  | 29 => some "I/O possible"
  | 30 => some "Power failure"
  | 31 => some "Bad system call"
  | n => if 34 ≤ n then some ("Real-time signal " ++ toString (n - 34)) else some ("Unknown signal "
      ++ toString n)

end Signal
end Script
end CommandShell
