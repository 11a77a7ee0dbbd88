import Mathlib.Computability.RegularExpressions
import ProcessEngine.Event.Basic

/-!
# The shape of a life

The names of the events of one instance, in the order of publication, form a word of a regular
language (`Life.shape`).  Here it is put together from what one call may add.
-/

namespace ProcessEngine.Life

open RegularExpression

/-! ## The language -/

/-- Any number of tasks are created. -/
def tasks : RegularExpression String := star (char "task.created")

/-- The instance is started. -/
def opening : RegularExpression String := char "process.start" * tasks * char "process.started"

/-- The instance goes on: it is continued, suspended or resumed. -/
def round : RegularExpression String :=
  char "process.continue" * tasks + char "process.suspend" * char "process.suspended" +
    char "process.resume" * char "process.resumed"

/-- The instance is continued and ends. -/
def closing : RegularExpression String := char "process.continue" * tasks * char "process.end"

/-- The instance is terminated. -/
def termination : RegularExpression String :=
  char "process.terminate" * char "process.terminated"

/-- What happens to an instance unless it is terminated: it is started, and either ends at once, or
goes on for any number of rounds and perhaps ends. -/
def course : RegularExpression String :=
  opening * (char "process.end" + star round * (1 + closing))

/-- The whole life of an instance: nothing as yet, or its course, and perhaps its termination. -/
def shape : RegularExpression String := 1 + course * (1 + termination)

/-- The course of an instance that has not ended. -/
def alive : RegularExpression String := opening * star round

/-- The course of an instance that has ended. -/
def ended : RegularExpression String := opening * (char "process.end" + star round * closing)

/-- The course of an instance that has ended or not. -/
def phase (isEnded : Bool) : RegularExpression String := if isEnded then ended else alive

/-! ## Words -/

section Words

variable {P Q : RegularExpression String} {v w : List String}

lemma mem_char (a : String) : [a] ∈ (char a).matches' := rfl

lemma append_mem (hv : v ∈ P.matches') (hw : w ∈ Q.matches') : v ++ w ∈ (P * Q).matches' :=
  Language.append_mem_mul hv hw

lemma mem_add_left (h : w ∈ P.matches') : w ∈ (P + Q).matches' := .inl h

lemma mem_add_right (h : w ∈ Q.matches') : w ∈ (P + Q).matches' := .inr h

lemma nil_mem_one : [] ∈ (1 : RegularExpression String).matches' := rfl

lemma nil_mem_star : [] ∈ (star P).matches' := Language.nil_mem_kstar P.matches'

lemma append_mem_star (hv : v ∈ (star P).matches') (hw : w ∈ P.matches') :
    v ++ w ∈ (star P).matches' := by
  rw [matches'_star] at hv ⊢
  rw [← Language.one_add_kstar_mul_self_eq_kstar]
  exact .inr (Language.append_mem_mul hv hw)

end Words

/-! ## Lives that grow -/

variable {v w : List String}

lemma tasks_of_forall (h : ∀ a ∈ w, a = "task.created") : w ∈ tasks.matches' := by
  refine Language.mem_kstar.2 ⟨w.map fun a => [a], ?_, ?_⟩
  · rw [← List.flatMap_def, List.flatMap_singleton']
  · intro y hy
    obtain ⟨a, ha, rfl⟩ := List.mem_map.1 hy
    rw [h a ha]
    exact mem_char _

lemma alive_of_opening (h : w ∈ opening.matches') : w ∈ alive.matches' := by
  rw [← List.append_nil w]
  exact append_mem h nil_mem_star

lemma ended_of_opening (h : w ∈ opening.matches') : w ++ ["process.end"] ∈ ended.matches' :=
  append_mem h (mem_add_left (mem_char _))

lemma alive_append_round (h : w ∈ alive.matches') (hv : v ∈ round.matches') :
    w ++ v ∈ alive.matches' := by
  obtain ⟨a, ha, b, hb, rfl⟩ := Language.mem_mul.1 h
  rw [List.append_assoc]
  exact append_mem ha (append_mem_star hb hv)

lemma alive_append_closing (h : w ∈ alive.matches') (hv : v ∈ closing.matches') :
    w ++ v ∈ ended.matches' := by
  obtain ⟨a, ha, b, hb, rfl⟩ := Language.mem_mul.1 h
  rw [List.append_assoc]
  exact append_mem ha (mem_add_right (append_mem hb hv))

lemma course_of_alive (h : w ∈ alive.matches') : w ∈ course.matches' := by
  obtain ⟨a, ha, b, hb, rfl⟩ := Language.mem_mul.1 h
  rw [← List.append_nil b]
  exact append_mem ha (mem_add_right (append_mem hb (mem_add_left nil_mem_one)))

lemma course_of_ended (h : w ∈ ended.matches') : w ∈ course.matches' := by
  obtain ⟨a, ha, b, hb, rfl⟩ := Language.mem_mul.1 h
  refine append_mem ha ?_
  rcases hb with hb | hb
  · exact mem_add_left hb
  · obtain ⟨c, hc, e, he, rfl⟩ := Language.mem_mul.1 hb
    exact mem_add_right (append_mem hc (mem_add_right he))

lemma course_of_phase {isEnded : Bool} (h : w ∈ (phase isEnded).matches') :
    w ∈ course.matches' := by
  cases isEnded with
  | false => exact course_of_alive h
  | true => exact course_of_ended h

lemma shape_of_course (h : w ∈ course.matches') : w ∈ shape.matches' := by
  rw [← List.append_nil w]
  exact mem_add_right (append_mem h (mem_add_left nil_mem_one))

lemma shape_terminated (h : w ∈ course.matches') :
    w ++ ["process.terminate", "process.terminated"] ∈ shape.matches' :=
  mem_add_right (append_mem h (mem_add_right (append_mem (mem_char _) (mem_char _))))

/-- Nothing follows a termination. -/
example : ["process.start", "process.started", "process.end", "process.terminate",
    "process.terminated", "process.continue"] ∉ shape.matches' := by
  decide

end ProcessEngine.Life
