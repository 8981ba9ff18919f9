import Mathlib

/-!
# Resources

Things that are acquired, used and given back. A program is disciplined when it
acquires only what is free, and uses and releases only what it holds: then
nothing is released twice or used after its release.
-/
namespace Net2Modbus
universe u

inductive Handling (Resource : Type u)
  | acquire (r : Resource)
  | use (r : Resource)
  | release (r : Resource)
  deriving DecidableEq, Repr

section
variable {Resource : Type u} [DecidableEq Resource]

namespace Handling

/-- What may be done while these resources are held. -/
def Allowed (held : Resource → Bool) : Handling Resource → Prop
  | .acquire r => held r = false
  | .use r | .release r => held r = true
/-- What is held afterwards. -/
def after (held : Resource → Bool) : Handling Resource → Resource → Bool
  | .acquire r => Function.update held r true
  | .use _ => held
  | .release r => Function.update held r false

instance (held : Resource → Bool) (h : Handling Resource) : Decidable (h.Allowed held) :=
  match h with
  | .acquire _ | .use _ | .release _ => inferInstanceAs (Decidable (_ = _))

end Handling

/-- What is held after a list of steps. -/
def holding (held : Resource → Bool) (steps : List (Handling Resource)) : Resource → Bool := steps.foldl Handling.after held
/-- Every step is allowed when it comes. -/
def Disciplined : (Resource → Bool) → List (Handling Resource) → Prop
  | _,[] => True
  | held,h :: rest => h.Allowed held ∧ Disciplined (h.after held) rest

instance decidableDisciplined : (held : Resource → Bool) → (steps : List (Handling Resource)) →
    Decidable (Disciplined held steps)
  | _,[] => isTrue trivial
  | held,h :: rest =>
    have := decidableDisciplined (h.after held) rest
    inferInstanceAs (Decidable (h.Allowed held ∧ Disciplined (h.after held) rest))

variable {held : Resource → Bool} {front back : List (Handling Resource)}

@[simp] theorem holding_nil : holding held [] = held := rfl
@[simp] theorem holding_cons (h : Handling Resource) : holding held (h :: back) = holding (h.after held) back := rfl
@[simp] theorem disciplined_nil : Disciplined held [] := trivial
@[simp] theorem disciplined_cons (h : Handling Resource) :
    Disciplined held (h :: back) ↔ h.Allowed held ∧ Disciplined (h.after held) back := Iff.rfl
theorem holding_append : holding held (front ++ back) = holding (holding held front) back := List.foldl_append
theorem disciplined_append :
    Disciplined held (front ++ back) ↔ Disciplined held front ∧ Disciplined (holding held front) back := by
  induction front generalizing held with
  | nil => simp
  | cons h rest ih => simp [ih,and_assoc]

/-- The steps are allowed, and lead from what is held to what is held then. -/
def Leads (held : Resource → Bool) (steps : List (Handling Resource)) (held' : Resource → Bool) : Prop :=
  Disciplined held steps ∧ holding held steps = held'

variable {held' held'' : Resource → Bool}

theorem leads_nil : Leads held [] held := ⟨trivial,rfl⟩
theorem leads_cons (h : Handling Resource) :
    Leads held (h :: back) held' ↔ h.Allowed held ∧ Leads (h.after held) back held' := by
  simp only [Leads,disciplined_cons,holding_cons,and_assoc]
theorem Leads.append (first : Leads held front held') (second : Leads held' back held'') :
    Leads held (front ++ back) held'' := by
  obtain ⟨allowed,same⟩ := first
  rw [Leads,disciplined_append,holding_append,same]
  exact ⟨⟨allowed,second.1⟩,second.2⟩
/-- What comes behind steps that have been followed. -/
theorem Leads.behind (first : Leads held front held') (all : Leads held (front ++ back) held'') :
    Leads held' back held'' := by
  obtain ⟨-,same⟩ := first
  rw [Leads,disciplined_append,holding_append,same] at all
  exact ⟨all.1.2,all.2⟩
/-- A step that is not allowed is never made up for. -/
theorem Leads.not_allowed (first : Leads held front held') {h : Handling Resource} (never : ¬ h.Allowed held') :
    ¬ Leads held (front ++ h :: back) held'' :=
  fun all => never ((leads_cons h).mp (first.behind all)).1

end
end Net2Modbus
