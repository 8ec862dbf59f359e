import Mathlib.Logic.Basic

/-! Edge-triggered notification: a source is reported once for each time that it becomes ready, and
a mark remembers a report that has not been fetched. -/

namespace EdgeTriggered

variable {F : Type} {ready ready' marked marked' : F → Prop} {f : F}

/-- The source is not ready, or its report is still to come. -/
def Alert (ready marked : F → Prop) (f : F) : Prop := ready f → marked f

/-- What a change of the sources promises: whatever is ready after it is marked, unless it was ready
    before it and not marked. So every edge marks its source, and marks of ready sources stay. -/
def Marks (ready ready' marked marked' : F → Prop) : Prop := ∀ f, ready' f → marked' f ∨ ready f ∧ ¬marked f

def Fetches (returned ready marked marked' : F → Prop) : Prop :=
  ∀ f, ready f → marked f → ¬returned f → marked' f

theorem alert_of_not_ready (quiet : ¬ready f) : Alert ready marked f := fun now => absurd now quiet

theorem alert_iff : Alert ready marked f ↔ marked f ∨ ¬ready f := imp_iff_or_not

theorem Marks.alert (marks : Marks ready ready' marked marked') (alert : Alert ready marked f) :
    Alert ready' marked' f := by
  intro now
  rcases marks f now with mark | ⟨before, missed⟩
  · exact mark
  · exact absurd (alert before) missed

theorem Fetches.alert {returned : F → Prop} (fetches : Fetches returned ready marked marked')
    (alert : Alert ready marked f) (other : ¬returned f) : Alert ready marked' f :=
  fun now => fetches f now (alert now) other

end EdgeTriggered
