/-!
# Callers asleep on a condition

Callers that cannot go on fall asleep in the order in which they come.  Waking one
picks the one that has slept longest; it is then `woken`, which means that it may
look again, not that it has done so.  A caller that looks again in vain falls asleep
behind all the others.
-/

namespace TimedTasks

/-- The callers that wait for one condition. -/
structure Parking (β : Type) where
  /-- Asleep, the longest sleeper first. -/
  asleep : List β := []
  /-- Told to look again, in the order in which they were told. -/
  woken : List β := []
  deriving DecidableEq, Repr, Inhabited

namespace Parking

variable {β : Type}

/-- One more caller falls asleep. -/
def park (parking : Parking β) (caller : β) : Parking β :=
  { parking with asleep := parking.asleep ++ [caller] }

/-- Tell the longest sleeper to look again, if anyone sleeps. -/
def wakeOne (parking : Parking β) : Parking β :=
  match parking.asleep with
  | [] => parking
  | caller :: others => { asleep := others, woken := parking.woken ++ [caller] }

/-- Tell everyone to look again. -/
def wakeAll (parking : Parking β) : Parking β :=
  { asleep := [], woken := parking.woken ++ parking.asleep }

/-- The woken callers that satisfy `p` begin to look again. -/
def rise (parking : Parking β) (p : β → Bool) : Parking β :=
  { parking with woken := parking.woken.filter fun caller => !p caller }

/-- Everyone who waits, whether asleep or woken. -/
def size (parking : Parking β) : Nat := parking.asleep.length + parking.woken.length

end Parking

end TimedTasks
