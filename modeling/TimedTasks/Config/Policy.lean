import TimedTasks.Scheduler.Error
import TimedTasks.Text.Blank

/-!
# Reading a failure policy

A policy may be written with blanks around it and in any mixture of ASCII capitals
and small letters.  What cannot be read is reported as it looks without them.
-/

namespace TimedTasks

def FailurePolicy.read (text : String) : Except ConfigFault FailurePolicy :=
  let word := Text.lowerAscii (Text.strip text)
  match FailurePolicy.ofName? word with
  | some policy => .ok policy
  | none => .error (.unknownPolicy word)

end TimedTasks
