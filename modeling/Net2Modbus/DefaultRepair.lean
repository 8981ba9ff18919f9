import Net2Modbus.Persistence

/-!
# The repair of missing words

`GetIpFromFlash` over any four words, against a repair of each field by itself. The source
writes the defaults of all three fields when one of them is missing.
-/
namespace Net2Modbus

/-- The configuration without one of its own: address, port and channel. -/
def Config.defaults (mode : UInt32) : Config := ⟨0x7B3B60E9,0x162F,mode,0⟩

/-- The stored word, or the default of the field when it is blank. -/
def filled (default word : UInt32) : UInt32 := if word = blankWord then default else word
/-- Every field by itself. -/
def Config.filled (c : Config) : Config :=
  ⟨Net2Modbus.filled 0x7B3B60E9 c.ip,Net2Modbus.filled 0x162F c.port,c.mode,Net2Modbus.filled 0 c.channel⟩

/-- What is expected of the load: each blank field has its default, the mode stays, and another load
    returns the same and lets no flash operation run, whatever these would return. -/
structure Repairs (f : Flash) : Prop where
  words : (getIpFromFlash f).2 = f.stored.filled.words
  mode : (getIpFromFlash f).1.stored.mode = f.stored.mode
  again : ∀ outcomes, getIpFromFlash { (getIpFromFlash f).1 with outcomes } =
    ({ (getIpFromFlash f).1 with outcomes, irqEnabled := true },(getIpFromFlash f).2)

/-- When a field is blank, the others have nothing to lose. -/
def Config.RepairClear (c : Config) : Prop :=
  c.blank → (c.ip = blankWord ∨ c.ip = 0x7B3B60E9) ∧ (c.port = blankWord ∨ c.port = 0x162F) ∧
    (c.channel = blankWord ∨ c.channel = 0)

instance (c : Config) : Decidable c.RepairClear := inferInstanceAs (Decidable (_ → _))

theorem filled_eq_iff (default word : UInt32) : filled default word = default ↔ word = blankWord ∨ word = default := by
  by_cases blank : word = blankWord
  · simp [filled,blank]
  · simp [filled,blank]
theorem filled_eq_defaults_iff (c : Config) : c.filled = .defaults c.mode ↔
    (c.ip = blankWord ∨ c.ip = 0x7B3B60E9) ∧ (c.port = blankWord ∨ c.port = 0x162F) ∧
      (c.channel = blankWord ∨ c.channel = 0) := by
  simp only [Config.filled,Config.defaults,Config.mk.injEq,filled_eq_iff,true_and]
/-- Nothing is filled in when nothing is missing. -/
theorem filled_present {c : Config} (present : ¬ c.blank) : c.filled = c := by
  simp only [Config.blank,not_or] at present
  obtain ⟨ip,port,channel⟩ := present
  simp only [Config.filled,filled,if_neg ip,if_neg port,if_neg channel]
theorem words_inj {c d : Config} (same : c.words = d.words) : c = d := by
  have cells := congrArg Block.cells same
  obtain ⟨ip,port,mode,channel⟩ := c
  simp only [Config.words,List.cons.injEq,and_true] at cells
  obtain ⟨rfl,rfl,rfl,rfl⟩ := cells
  rfl

section
variable {f : Flash}

/-- The load of a configuration with a blank field whose erase and four programs complete. -/
theorem repair_stored (works : f.Works 5) (blank : f.stored.blank) :
    (getIpFromFlash f).1.stored = .defaults f.stored.mode ∧ (getIpFromFlash f).2 = (Config.defaults f.stored.mode).words := by
  have written := writeIpToFlash_works (Config.defaults f.stored.mode).words works
  rw [getIpFromFlash_eq,if_pos blank]
  exact ⟨written,rfl⟩
/-- A load that finds nothing blank runs no operation. -/
theorem load_quiet (present : ¬ f.stored.blank) (outcomes : List Bool) :
    getIpFromFlash { f with outcomes } = ({ f with outcomes, irqEnabled := true },f.stored.words) :=
  getIpFromFlash_present (f := { f with outcomes }) present

/-- With flash operations that complete each field is repaired by itself exactly when the fields that are
    not blank have their defaults where one is blank. -/
theorem default_repair_iff (works : f.Works 5) : Repairs f ↔ f.stored.RepairClear := by
  by_cases blank : f.stored.blank
  · obtain ⟨stored,words⟩ := repair_stored works blank
    have each : f.stored.RepairClear ↔ f.stored.filled = .defaults f.stored.mode :=
      (forall_prop_of_true blank).trans (filled_eq_defaults_iff f.stored).symm
    rw [each]
    constructor
    · intro repairs
      exact words_inj (repairs.words.symm.trans words)
    · intro same
      constructor
      · rw [words,same]
      · rw [stored]
        rfl
      · intro outcomes
        have present : ¬ (getIpFromFlash f).1.stored.blank := by
          rw [stored]
          exact defaults_present f.stored.mode
        rw [load_quiet present,stored,words]
  · have loaded := getIpFromFlash_present blank
    refine iff_of_true ?_ fun missing => absurd missing blank
    constructor
    · rw [loaded,filled_present blank]
    · rw [loaded]
      rfl
    · intro outcomes
      rw [loaded]
      exact load_quiet (f := { f with irqEnabled := true }) blank outcomes
end

theorem default_repair_iff_blank : Repairs ⟨fun _ => blankWord,[],true⟩ :=
  (default_repair_iff (by simp [Flash.Works])).mpr (by decide)
/-- With a blank address the port and the channel that were set are lost. -/
theorem default_repair_fails :
    ¬ Repairs ⟨fun a => if a = ipPortFlash then 80 else if a = rfChannelFlageFlash then 7 else blankWord,[],true⟩ := by
  intro repairs
  have words := repairs.words
  revert words
  decide

end Net2Modbus
