import Net2Modbus.Machine

/-!
# Senders that wait for acknowledgements

A file cut into numbered blocks, a sender that goes on to the next block when the last
one has been acknowledged, and a network that delivers copies of what was sent, late,
more than once or never, to a reactive system. Numbers are compared in 16 bits.
-/
namespace Net2Modbus
universe u v w x

section
variable {Cell : Type u} {size : Nat} {file : List Cell} {k : Nat}

/-- The block with a number, counted from 1. -/
def chunk (size : Nat) (file : List Cell) (k : Nat) : List Cell := (file.drop (size * (k - 1))).take size
/-- The number of the last block, which is shorter than the others. -/
def lastChunk (size : Nat) (file : List Cell) : Nat := file.length / size + 1

variable (size file k) in
theorem chunk_length_le : (chunk size file k).length ≤ size := List.length_take_le _ _
theorem chunk_succ : file.take (size * k) ++ chunk size file (k + 1) = file.take (size * (k + 1)) := by
  rw [chunk,Nat.add_sub_cancel,Nat.mul_succ,List.take_add]
variable (size file k) in
theorem chunk_length (before : k < file.length / size) : (chunk size file (k + 1)).length = size := by
  have inside : size * (k + 1) ≤ file.length :=
    Nat.le_trans (Nat.mul_le_mul_left size before) (Nat.mul_div_le file.length size)
  rw [Nat.mul_succ] at inside
  rw [chunk,Nat.add_sub_cancel,List.length_take,List.length_drop]
  omega
theorem chunk_last_length (positive : 0 < size) :
    (chunk size file (lastChunk size file)).length = file.length % size := by
  have parts := Nat.div_add_mod file.length size
  have less := Nat.mod_lt file.length positive
  rw [lastChunk,chunk,Nat.add_sub_cancel,List.length_take,List.length_drop]
  omega
/-- Only the last block is short. -/
theorem chunk_short_iff (positive : 0 < size) (before : k < lastChunk size file) :
    (chunk size file (k + 1)).length < size ↔ k + 1 = lastChunk size file := by
  constructor
  · intro short
    by_contra more
    have full := chunk_length size file k (by unfold lastChunk at before more; omega)
    omega
  · intro last
    rw [last,chunk_last_length positive]
    exact Nat.mod_lt file.length positive
theorem chunk_beyond (positive : 0 < size) : chunk size file (lastChunk size file + 1) = [] := by
  have less := Nat.lt_mul_div_succ file.length positive
  rw [chunk,Nat.add_sub_cancel,lastChunk,List.drop_of_length_le (Nat.le_of_lt less)]
  exact List.take_nil
/-- The blocks before the last one and the last one are the file. -/
theorem take_lastChunk (positive : 0 < size) : file.take (size * (lastChunk size file)) = file := by
  have less := Nat.lt_mul_div_succ file.length positive
  exact List.take_of_length_le (Nat.le_of_lt less)

end

structure Lockstep (Server : Type u) where
  server : Server
  sent : Nat
  acks : List UInt16

/-- The sender goes on, or a copy of a block arrives. -/
inductive LockstepInput (Env : Type v)
  | send
  | deliver (env : Env) (block : Nat)

/-- The copies of a block that arrive. -/
def LockstepInput.delivers {Env : Type v} (k : Nat) : LockstepInput Env → Bool
  | .send => false
  | .deliver _ block => block == k

section
variable {Server : Type u} {Input : Type v} {Event : Type w} {Env : Type x} (m : Machine Server Input Event)
  [∀ s i, Decidable (m.enabled s i)] (packet : Env → Nat → Input) (acked : Event → Option UInt16) (last : Nat)

/-- A packet that the system does not take is lost. -/
def lockstep : Machine (Lockstep Server) (LockstepInput Env) Event where
  enabled u
    | .send => u.sent < last ∧ UInt16.ofNat u.sent ∈ u.acks
    | .deliver _ block => 1 ≤ block ∧ block ≤ u.sent
  step u
    | .send => ({ u with sent := u.sent + 1 },[])
    | .deliver env block =>
      if m.enabled u.server (packet env block) then
        let done := m.step u.server (packet env block)
        ({ u with server := done.1, acks := u.acks ++ done.2.filterMap acked },done.2)
      else (u,[])

instance (u : Lockstep Server) (i : LockstepInput Env) : Decidable ((lockstep m packet acked last).enabled u i) :=
  match i with
  | .send | .deliver _ _ => inferInstanceAs (Decidable (_ ∧ _))

section
variable {m : Machine Server Input Event} [∀ s i, Decidable (m.enabled s i)] {packet : Env → Nat → Input}
  {acked : Event → Option UInt16} {last : Nat} {u : Lockstep Server} {env : Env} {block : Nat}

/-- A packet that the system takes. -/
theorem lockstep_taken (ready : m.enabled u.server (packet env block)) :
    (lockstep m packet acked last).step u (.deliver env block) =
      ({ u with
          server := (m.step u.server (packet env block)).1
          acks := u.acks ++ (m.step u.server (packet env block)).2.filterMap acked },
        (m.step u.server (packet env block)).2) := if_pos ready
theorem lockstep_lost (refused : ¬ m.enabled u.server (packet env block)) :
    (lockstep m packet acked last).step u (.deliver env block) = (u,[]) := if_neg refused
end

/-- The sender is at most one block ahead of a count, and nothing beyond the count has
    been acknowledged. -/
structure InStep (u : Lockstep Server) (count : Nat) : Prop where
  sent : u.sent ≤ count + 1
  acks : ∀ a ∈ u.acks, a.toNat ≤ count

variable {m packet acked last} {u : Lockstep Server} {count : Nat}

/-- The sender goes on only when the count has reached its block. -/
theorem InStep.send (step : InStep u count) (small : count + 1 < 65536)
    (go : (lockstep m packet acked last).enabled u .send) : InStep { u with sent := u.sent + 1 } count := by
  obtain ⟨-,ready⟩ := go
  have reached := step.acks _ ready
  have ahead := step.sent
  rw [UInt16.toNat_ofNat',Nat.mod_eq_of_lt (by omega)] at reached
  exact ⟨Nat.succ_le_succ reached,step.acks⟩
theorem InStep.take (step : InStep u count) {count' : Nat} (more : count ≤ count') {s : Server} {new : List UInt16}
    (bound : ∀ a ∈ new, a.toNat ≤ count') : InStep { u with server := s, acks := u.acks ++ new } count' := by
  refine ⟨Nat.le_trans step.sent (Nat.succ_le_succ more),?_⟩
  rw [List.forall_mem_append]
  exact ⟨fun a old => Nat.le_trans (step.acks a old) more,bound⟩

end
end Net2Modbus
