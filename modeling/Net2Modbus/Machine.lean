import Mathlib

/-!
# Reactive systems and their ledgers

A reactive system takes one input at a time, changes its state and lets some
events be seen. This module has the runs of such a system, the induction rules
over them, and ledgers: what the events of a run ask for against what they
deliver and what the state still owes.
-/
namespace Net2Modbus
universe u v w x

/-- A reactive system: when an input can occur, and the state and the events
    that it leaves. -/
structure Machine (State : Type u) (Input : Type v) (Event : Type w) where
  enabled : State → Input → Prop
  step : State → Input → State × List Event

namespace Machine
variable {State : Type u} {Input : Type v} {Event : Type w} (m : Machine State Input Event)

/-- The state after a list of inputs. -/
def after : State → List Input → State
  | s,[] => s
  | s,i :: rest => after (m.step s i).1 rest
/-- The events of a list of inputs, in order. -/
def trace : State → List Input → List Event
  | _,[] => []
  | s,i :: rest => (m.step s i).2 ++ trace (m.step s i).1 rest
/-- Every input meets a condition in the state that it finds. -/
def Each (P : State → Input → Prop) : State → List Input → Prop
  | _,[] => True
  | s,i :: rest => P s i ∧ Each P (m.step s i).1 rest
/-- Every input can occur when it does. -/
def Admissible : State → List Input → Prop := m.Each m.enabled
/-- A property of the state and of the events so far holds from a state on, at
    every point of a run. -/
def Throughout (Q : State → List Event → Prop) : State → List Event → List Input → Prop
  | s,past,[] => Q s past
  | s,past,i :: rest => Q s past ∧ Throughout Q (m.step s i).1 (past ++ (m.step s i).2) rest

instance decidableEach {P : State → Input → Prop} [∀ s i, Decidable (P s i)] :
    ∀ (s : State) (inputs : List Input), Decidable (m.Each P s inputs)
  | _,[] => isTrue trivial
  | s,i :: rest =>
    have := decidableEach (P := P) (m.step s i).1 rest
    inferInstanceAs (Decidable (P s i ∧ m.Each P (m.step s i).1 rest))

instance decidableAdmissible [∀ s i, Decidable (m.enabled s i)] (s : State) (inputs : List Input) :
    Decidable (m.Admissible s inputs) :=
  inferInstanceAs (Decidable (m.Each m.enabled s inputs))

instance decidableThroughout {R : State → List Event → Prop} [∀ s past, Decidable (R s past)] :
    ∀ (s : State) (past : List Event) (inputs : List Input), Decidable (m.Throughout R s past inputs)
  | s,past,[] => inferInstanceAs (Decidable (R s past))
  | s,past,i :: rest =>
    have := decidableThroughout (R := R) (m.step s i).1 (past ++ (m.step s i).2) rest
    inferInstanceAs (Decidable (R s past ∧ m.Throughout R (m.step s i).1 (past ++ (m.step s i).2) rest))

variable {m} {P Q : State → Input → Prop} {s : State} {front back inputs : List Input}

@[simp] theorem after_nil : m.after s [] = s := rfl
@[simp] theorem after_cons {i : Input} : m.after s (i :: inputs) = m.after (m.step s i).1 inputs := rfl
@[simp] theorem trace_nil : m.trace s [] = [] := rfl
@[simp] theorem trace_cons {i : Input} :
    m.trace s (i :: inputs) = (m.step s i).2 ++ m.trace (m.step s i).1 inputs := rfl
@[simp] theorem each_nil : m.Each P s [] := trivial
@[simp] theorem each_cons {i : Input} : m.Each P s (i :: inputs) ↔ P s i ∧ m.Each P (m.step s i).1 inputs := Iff.rfl

theorem after_append : m.after s (front ++ back) = m.after (m.after s front) back := by
  induction front generalizing s with
  | nil => rfl
  | cons i rest ih => exact ih
theorem trace_append : m.trace s (front ++ back) = m.trace s front ++ m.trace (m.after s front) back := by
  induction front generalizing s with
  | nil => rfl
  | cons i rest ih => simp [ih]
theorem each_append : m.Each P s (front ++ back) ↔ m.Each P s front ∧ m.Each P (m.after s front) back := by
  induction front generalizing s with
  | nil => simp
  | cons i rest ih => simp [ih,and_assoc]
theorem each_and : m.Each (fun s i => P s i ∧ Q s i) s inputs ↔ m.Each P s inputs ∧ m.Each Q s inputs := by
  induction inputs generalizing s with
  | nil => simp
  | cons i rest ih => simp only [each_cons,ih]; tauto
/-- A condition on the inputs alone. -/
theorem each_of_forall {good : Input → Prop} (all : ∀ i ∈ inputs, good i) : m.Each (fun _ => good) s inputs := by
  induction inputs generalizing s with
  | nil => trivial
  | cons i rest ih =>
    rw [List.forall_mem_cons] at all
    exact ⟨all.1,ih all.2⟩

/-- What every step keeps, of the inputs so far, the state and the events so
    far, holds after a run. -/
theorem history_run {R : List Input → State → List Event → Prop}
    (keep : ∀ before s past i, R before s past → P s i →
      R (before ++ [i]) (m.step s i).1 (past ++ (m.step s i).2))
    (before : List Input) (past : List Event) (start : R before s past) (each : m.Each P s inputs) :
    R (before ++ inputs) (m.after s inputs) (past ++ m.trace s inputs) := by
  induction inputs generalizing s before past with
  | nil => simpa using start
  | cons i rest ih =>
    have later := ih _ _ (keep before s past i start each.1) each.2
    simpa using later
/-- The rule without the inputs. -/
theorem events_run {R : State → List Event → Prop}
    (keep : ∀ s past i, R s past → P s i → R (m.step s i).1 (past ++ (m.step s i).2))
    (past : List Event) (start : R s past) (each : m.Each P s inputs) :
    R (m.after s inputs) (past ++ m.trace s inputs) :=
  history_run (R := fun _ => R) (fun _ s past i => keep s past i) [] past start each
/-- The rule for the state alone. -/
theorem invariant_run {R : State → Prop} (keep : ∀ s i, R s → P s i → R (m.step s i).1)
    (start : R s) (each : m.Each P s inputs) : R (m.after s inputs) :=
  events_run (R := fun s _ => R s) (fun s _ i => keep s i) [] start each
/-- What holds of every step from a state that satisfies an invariant holds
    along the run. -/
theorem each_of_invariant {R : State → Prop} (keep : ∀ s i, R s → P s i → R (m.step s i).1)
    (gives : ∀ s i, R s → P s i → Q s i) (start : R s) (each : m.Each P s inputs) : m.Each Q s inputs := by
  induction inputs generalizing s with
  | nil => trivial
  | cons i rest ih => exact ⟨gives s i start each.1,ih (keep s i start each.1) each.2⟩

/-- Two systems that stay related, input by input, and show the same. -/
theorem simulation {State' : Type x} {m' : Machine State' Input Event} {R : State → State' → Prop} {s' : State'}
    (keep : ∀ s s' i, R s s' → P s i → R (m.step s i).1 (m'.step s' i).1 ∧ (m.step s i).2 = (m'.step s' i).2)
    (start : R s s') (each : m.Each P s inputs) :
    R (m.after s inputs) (m'.after s' inputs) ∧ m.trace s inputs = m'.trace s' inputs := by
  induction inputs generalizing s s' with
  | nil => exact ⟨start,rfl⟩
  | cons i rest ih =>
    obtain ⟨related,same⟩ := keep s s' i start each.1
    obtain ⟨last,shown⟩ := ih related each.2
    refine ⟨last,?_⟩
    rw [trace_cons,trace_cons,same,shown]

theorem throughout_iff {R : State → List Event → Prop} {past : List Event} :
    m.Throughout R s past inputs ↔
      ∀ front back, inputs = front ++ back → R (m.after s front) (past ++ m.trace s front) := by
  induction inputs generalizing s past with
  | nil =>
    constructor
    · intro holds front back split
      obtain ⟨rfl,rfl⟩ := List.append_eq_nil_iff.mp split.symm
      simpa [Throughout] using holds
    · intro all
      simpa [Throughout] using all [] [] rfl
  | cons i rest ih =>
    simp only [Throughout,ih]
    constructor
    · rintro ⟨now,later⟩ front back split
      cases front with
      | nil => simpa using now
      | cons j front =>
        obtain ⟨rfl,rfl⟩ := List.cons.inj split
        simpa using later front back rfl
    · intro all
      refine ⟨by simpa using all [] (i :: rest) rfl,?_⟩
      intro front back split
      subst split
      simpa using all (i :: front) back rfl
theorem Throughout.first {R : State → List Event → Prop} {past : List Event}
    (holds : m.Throughout R s past inputs) : R s past := by
  simpa using throughout_iff.mp holds [] inputs rfl
theorem Throughout.last {R : State → List Event → Prop} {past : List Event}
    (holds : m.Throughout R s past inputs) : R (m.after s inputs) (past ++ m.trace s inputs) :=
  throughout_iff.mp holds inputs [] (by simp)
/-- What every step keeps holds at every point of a run. -/
theorem throughout_run {R : State → List Event → Prop}
    (keep : ∀ s past i, R s past → P s i → R (m.step s i).1 (past ++ (m.step s i).2))
    {past : List Event} (start : R s past) (each : m.Each P s inputs) : m.Throughout R s past inputs := by
  rw [throughout_iff]
  rintro front back rfl
  exact events_run keep past start (each_append.mp each).1
theorem Throughout.mono {R S : State → List Event → Prop} {past : List Event}
    (weaken : ∀ s past, R s past → S s past) (holds : m.Throughout R s past inputs) :
    m.Throughout S s past inputs :=
  throughout_iff.mpr fun front back split => weaken _ _ (throughout_iff.mp holds front back split)
/-- When an invariant is kept by each step that meets a guard, and a property that
    it gives is lost by each step that does not, the property holds along a run
    exactly when every step meets the guard. -/
theorem throughout_iff_each {R S : State → List Event → Prop} {can guard : State → Input → Prop}
    (gives : ∀ s past, R s past → S s past)
    (keep : ∀ s past i, R s past → can s i → guard s i → R (m.step s i).1 (past ++ (m.step s i).2))
    (breaks : ∀ s past i, R s past → can s i → ¬ guard s i → ¬ S (m.step s i).1 (past ++ (m.step s i).2))
    {past : List Event} (start : R s past) (each : m.Each can s inputs) :
    m.Throughout S s past inputs ↔ m.Each guard s inputs := by
  constructor
  · intro holds
    induction inputs generalizing s past with
    | nil => trivial
    | cons i rest ih =>
      obtain ⟨now,later⟩ := each
      by_cases safe : guard s i
      · exact ⟨safe,ih (keep s past i start now safe) later holds.2⟩
      · exact absurd holds.2.first (breaks s past i start now safe)
  · intro guarded
    have both := each_and.mpr ⟨each,guarded⟩
    have kept := throughout_run (R := R) (fun s past i held now => keep s past i held now.1 now.2) start both
    exact kept.mono gives

/-- When from the states of an invariant the events of a step are good exactly where
    a guard holds, all events of a run are good exactly when every step meets the
    guard. -/
theorem forall_trace_iff {R : State → Prop} {G : Event → Prop}
    (keep : ∀ s i, R s → P s i → R (m.step s i).1)
    (exact : ∀ s i, R s → P s i → ((∀ e ∈ (m.step s i).2, G e) ↔ Q s i))
    (start : R s) (each : m.Each P s inputs) : (∀ e ∈ m.trace s inputs, G e) ↔ m.Each Q s inputs := by
  induction inputs generalizing s with
  | nil => simp
  | cons i rest ih =>
    obtain ⟨now,later⟩ := each
    rw [trace_cons,List.forall_mem_append,each_cons,exact s i start now,ih (keep s i start now) later]

section
variable {Ghost : Type x} (m) (look : Ghost → State → Input → Ghost)

/-- A system with an observer, which sees every input and the state that it finds
    and does not change what happens. -/
def observe : Machine (State × Ghost) Input Event where
  enabled s i := m.enabled s.1 i
  step s i := (((m.step s.1 i).1,look s.2 s.1 i),(m.step s.1 i).2)

variable {m look} {s : State × Ghost}

theorem observe_trace : (m.observe look).trace s inputs = m.trace s.1 inputs := by
  induction inputs generalizing s with
  | nil => rfl
  | cons i rest ih =>
    rw [trace_cons,ih]
    rfl
theorem observe_each : (m.observe look).Each (fun s i => P s.1 i) s inputs ↔ m.Each P s.1 inputs := by
  induction inputs generalizing s with
  | nil => exact Iff.rfl
  | cons i rest ih => exact and_congr_right fun _ => ih
end

end Machine

section
variable {Event : Type u} {G : List Event → Event → Prop} {past front back : List Event} {e : Event}

variable (G) in
/-- Every event meets a condition on the events before it. -/
def EachAfter : List Event → List Event → Prop
  | _,[] => True
  | past,e :: rest => G past e ∧ EachAfter (past ++ [e]) rest

theorem eachAfter_cons : EachAfter G past (e :: back) ↔ G past e ∧ EachAfter G (past ++ [e]) back := Iff.rfl
theorem eachAfter_append : EachAfter G past (front ++ back) ↔ EachAfter G past front ∧ EachAfter G (past ++ front) back := by
  induction front generalizing past with
  | nil => simp [EachAfter]
  | cons e rest ih => simp [EachAfter,ih,and_assoc]

end

/-! ### Ledgers -/

/-- What each event asks for, what it delivers, and what a state still has to
    deliver. -/
structure Ledger (State : Type u) (Event : Type w) (Item : Type x) where
  due : Event → List Item
  paid : Event → List Item
  owed : State → List Item

namespace Ledger
variable {State : Type u} {Input : Type v} {Event : Type w} {Item : Type x} (l : Ledger State Event Item)

/-- Everything asked for has been delivered, in order, but for what is owed. -/
def Balanced (s : State) (past : List Event) : Prop := past.flatMap l.paid ++ l.owed s = past.flatMap l.due
/-- A step that pays from what was owed and owes what it was asked for. -/
def Exact (s s' : State) (events : List Event) : Prop :=
  events.flatMap l.paid ++ l.owed s' = l.owed s ++ events.flatMap l.due
/-- A step after which some item is neither delivered nor owed. -/
def Short (s s' : State) (events : List Event) : Prop :=
  (events.flatMap l.paid).length + (l.owed s').length < (l.owed s).length + (events.flatMap l.due).length
instance decidableBalanced [DecidableEq Item] (s : State) (past : List Event) : Decidable (l.Balanced s past) :=
  inferInstanceAs (Decidable (_ = _))

variable {l} {s s' : State} {past events : List Event}

theorem Balanced.exact (balanced : l.Balanced s past) (exact : l.Exact s s' events) :
    l.Balanced s' (past ++ events) := by
  unfold Balanced Exact at *
  rw [List.flatMap_append,List.flatMap_append,List.append_assoc,exact,← List.append_assoc,balanced]
/-- What a short step loses is not made up for. -/
theorem Balanced.not_short (balanced : l.Balanced s past) (short : l.Short s s' events) :
    ¬ l.Balanced s' (past ++ events) := by
  intro later
  have before := congrArg List.length balanced
  have after := congrArg List.length later
  unfold Short at short
  simp only [List.flatMap_append,List.length_append] at before after
  omega

/-- When each step that can be taken is exact where a guard holds and short
    where it does not, a run stays balanced exactly when every step meets the
    guard. -/
theorem balanced_iff {m : Machine State Input Event} {Inv : State → Prop} {can guard : State → Input → Prop}
    (keep : ∀ s i, Inv s → can s i → Inv (m.step s i).1)
    (exact : ∀ s i, Inv s → can s i → guard s i → l.Exact s (m.step s i).1 (m.step s i).2)
    (short : ∀ s i, Inv s → can s i → ¬ guard s i → l.Short s (m.step s i).1 (m.step s i).2)
    {inputs : List Input} (start : Inv s) (balanced : l.Balanced s past) (each : m.Each can s inputs) :
    m.Throughout l.Balanced s past inputs ↔ m.Each guard s inputs :=
  Machine.throughout_iff_each (R := fun s past => Inv s ∧ l.Balanced s past)
    (fun _ _ held => held.2)
    (fun s _ i held now safe => ⟨keep s i held.1 now,held.2.exact (exact s i held.1 now safe)⟩)
    (fun s _ i held now unsafe_ => held.2.not_short (short s i held.1 now unsafe_))
    ⟨start,balanced⟩ each

end Ledger
end Net2Modbus
