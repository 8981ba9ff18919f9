import Net2Modbus.Client
import Net2Modbus.Decimal

/-!
# The temperature record

`DS1820main` writes the uptime and two temperatures into a text of 33 bytes, digit by
digit. What can be read back from the text has five digits and no sign.
-/
namespace Net2Modbus
open Decimal

/-- The two bytes that a sensor sends, as a number in two's complement. -/
def rawWord (th tl : UInt8) : Int16 := ((th.toUInt16 <<< 8) ||| tl.toUInt16).toInt16
/-- Sixteenths of a degree in hundredths, cut towards zero. -/
def hundredths (data : Int16) : Int := (data.toInt * 25).tdiv 4
/-- `DS18B20_ReadDesignateTemper`; no sensor answers the reset for `none`. -/
def ds18b20ReadDesignateTemper (sensor : Option (UInt8 × UInt8)) : Int16 :=
  match sensor with
  | some (th,tl) => Int16.ofInt (hundredths (rawWord th tl))
  | none => -1

/-- The five characters of a number, with the quotients and remainders of C. -/
def decimals (x : Int) : List UInt8 :=
  [x.tdiv 10000,(x.tmod 10000).tdiv 1000,((x.tmod 10000).tmod 1000).tdiv 100,
    (((x.tmod 10000).tmod 1000).tmod 100).tdiv 10,(((x.tmod 10000).tmod 1000).tmod 100).tmod 10].map
    fun d => UInt8.ofInt (d + 0x30)

/-- The places of the characters. -/
def timePlaces : List Nat := [6,7,8,9,10]
def firstPlaces : List Nat := [17,18,19,21,22]
def secondPlaces : List Nat := [24,25,26,28,29]

/-- Assignments to elements of the record, in order. -/
def assign (writes : List (Nat × UInt8)) (temp : Block UInt8 33) : Block UInt8 33 :=
  writes.foldl (fun temp w => temp.poke w.1 w.2) temp

/-- The characters that are written once. -/
def recordFrame : List (Nat × UInt8) :=
  [(0,9)] ++ [1,2,3,4,5].zip (chars ['T','i','m','e',':']) ++ [(11,9)] ++ [12,13,14,15,16].zip (chars ['T','e','m','p',':']) ++
    [(23,9)] ++ [20,27].zip (chars ['.','.']) ++ [(30,9),(31,13),(32,10)]
/-- Those that every call writes. -/
def recordDigits (timeRun : UInt32) (temp1 temp2 : Int16) : List (Nat × UInt8) :=
  timePlaces.zip (decimals timeRun.toNat) ++ firstPlaces.zip (decimals temp1.toInt) ++
    secondPlaces.zip (decimals temp2.toInt)

/-- The static variables of `DS1820main`. -/
structure TempRecord where
  fistsech : Bool
  temp : Block UInt8 33

/-- `DS1820main`; `found` is the result of the first search, which is made until it
    succeeds. -/
def ds1820Main (found : Bool) (timeRun : UInt32) (first second : Option (UInt8 × UInt8)) (r : TempRecord) : TempRecord :=
  if r.fistsech = false ∧ found = false then r
  else
    let temp := if r.fistsech then r.temp else assign recordFrame r.temp
    ⟨true,assign (recordDigits timeRun (ds18b20ReadDesignateTemper first) (ds18b20ReadDesignateTemper second)) temp⟩

/-- From -55 to 125 degrees. -/
def InRange (data : Int16) : Prop := -880 ≤ data.toInt ∧ data.toInt ≤ 2000
instance (data : Int16) : Decidable (InRange data) := inferInstanceAs (Decidable (_ ∧ _))

/-- The places of the digits hold digits or signs, and what they say is the uptime and
    the temperatures. -/
structure RecordKept (timeRun : UInt32) (word1 word2 : Int16) (temp : Block UInt8 33) : Prop where
  text : ∀ i ∈ timePlaces ++ firstPlaces ++ secondPlaces, isAsciiDigit (temp.peek i) = true ∨ isSign (temp.peek i) = true
  uptime : signedVal (timePlaces.map temp.peek) = some (timeRun.toNat : Int)
  first : signedVal (firstPlaces.map temp.peek) = some (hundredths word1)
  second : signedVal (secondPlaces.map temp.peek) = some (hundredths word2)

theorem assign_other {writes : List (Nat × UInt8)} {i : Nat} (temp : Block UInt8 33) (other : ∀ w ∈ writes, w.1 ≠ i) :
    (assign writes temp).peek i = temp.peek i := by
  induction writes generalizing temp with
  | nil => rfl
  | cons w rest ih =>
    rw [List.forall_mem_cons] at other
    change (assign rest (temp.poke w.1 w.2)).peek i = temp.peek i
    rw [ih _ other.2]
    simp [Block.peek,List.getElem?_set_ne other.1]
/-- Assignments to different elements stay. -/
theorem assign_peek {writes : List (Nat × UInt8)} (temp : Block UInt8 33) (distinct : (writes.map Prod.fst).Nodup)
    (inside : ∀ w ∈ writes, w.1 < 33) : ∀ w ∈ writes, (assign writes temp).peek w.1 = w.2 := by
  induction writes generalizing temp with
  | nil => exact List.forall_mem_nil _
  | cons first rest ih =>
    rw [List.map_cons,List.nodup_cons] at distinct
    rw [List.forall_mem_cons] at inside ⊢
    constructor
    · change (assign rest (temp.poke first.1 first.2)).peek first.1 = first.2
      rw [assign_other,temp.peek_poke _ inside.1]
      intro w member same
      exact distinct.1 (same ▸ List.mem_map_of_mem member)
    · exact ih (temp.poke first.1 first.2) distinct.2 inside.2
theorem map_of_zip {f : Nat → UInt8} {places : List Nat} {bytes : List UInt8} (length : places.length = bytes.length)
    (same : ∀ w ∈ places.zip bytes, f w.1 = w.2) : places.map f = bytes := by
  induction places generalizing bytes with
  | nil => exact (List.eq_nil_of_length_eq_zero length.symm).symm
  | cons i places ih =>
    cases bytes with
    | nil => exact absurd length (Nat.succ_ne_zero _)
    | cons c bytes =>
      rw [List.zip_cons_cons,List.forall_mem_cons] at same
      rw [List.map_cons,same.1,ih (Nat.succ.inj length) same.2]

/-- What stands at the places of the digits after a call. -/
theorem recordDigits_places (timeRun : UInt32) (temp1 temp2 : Int16) (temp : Block UInt8 33) :
    timePlaces.map (assign (recordDigits timeRun temp1 temp2) temp).peek = decimals timeRun.toNat ∧
      firstPlaces.map (assign (recordDigits timeRun temp1 temp2) temp).peek = decimals temp1.toInt ∧
      secondPlaces.map (assign (recordDigits timeRun temp1 temp2) temp).peek = decimals temp2.toInt := by
  have places : (recordDigits timeRun temp1 temp2).map Prod.fst = timePlaces ++ firstPlaces ++ secondPlaces := rfl
  have inside : ∀ w ∈ recordDigits timeRun temp1 temp2, w.1 < 33 := by
    intro w member
    have place : w.1 ∈ timePlaces ++ firstPlaces ++ secondPlaces := places ▸ List.mem_map_of_mem member
    exact (show ∀ i ∈ timePlaces ++ firstPlaces ++ secondPlaces, i < 33 by decide) w.1 place
  have stay := assign_peek temp (by rw [places]; decide) inside
  refine ⟨map_of_zip rfl ?_,map_of_zip rfl ?_,map_of_zip rfl ?_⟩
  · intro w member
    exact stay w (List.mem_append_left _ (List.mem_append_left _ member))
  · intro w member
    exact stay w (List.mem_append_left _ (List.mem_append_right _ member))
  · intro w member
    exact stay w (List.mem_append_right _ member)

/-- A digit in a byte. -/
theorem ofInt_digit (d : Nat) : UInt8.ofInt ((d : Int) + 0x30) = UInt8.ofNat (d + 0x30) := by
  rw [← UInt8.toNat_inj]
  simp [UInt8.ofInt,UInt8.toNat_ofNat']
  omega
/-- A number of up to five digits is written as it is. -/
theorem decimals_fixed {n : Nat} (fits : n < 100000) : decimals n = fixedDigits 5 n := by
  have places : n / 10000 = n / 10 / 10 / 10 / 10 % 10 ∧ n % 10000 / 1000 = n / 10 / 10 / 10 % 10 ∧
      n % 10000 % 1000 / 100 = n / 10 / 10 % 10 ∧ n % 10000 % 1000 % 100 / 10 = n / 10 % 10 ∧
      n % 10000 % 1000 % 100 % 10 = n % 10 := by omega
  obtain ⟨tenThousands,thousands,hundreds,tens,ones⟩ := places
  have characters : decimals n = [n / 10000,n % 10000 / 1000,n % 10000 % 1000 / 100,n % 10000 % 1000 % 100 / 10,
      n % 10000 % 1000 % 100 % 10].map fun d => UInt8.ofNat (d + 0x30) := by
    simp only [List.map_cons,List.map_nil,← ofInt_digit]
    rfl
  rw [characters,tenThousands,thousands,hundreds,tens,ones]
  rfl
/-- The first character of a number of up to five digits is a digit. -/
theorem decimals_head {x : Int} (low : -10000 < x) (high : x < 100000) :
    ∃ c rest, decimals x = c :: rest ∧ isAsciiDigit c = true := by
  refine ⟨UInt8.ofInt (x.tdiv 10000 + 0x30),_,rfl,?_⟩
  by_cases negative : x < 0
  · have none : x.tdiv 10000 = 0 := by
      rw [← Int.neg_neg x,Int.neg_tdiv,Int.tdiv_eq_ediv_of_nonneg (by omega)]
      omega
    rw [none]
    decide
  · obtain ⟨n,rfl⟩ := Int.eq_ofNat_of_zero_le (Int.not_lt.mp negative)
    have quotient : (n : Int).tdiv 10000 = (n / 10000 : Nat) := rfl
    rw [quotient,ofInt_digit]
    exact isAsciiDigit_digit (by omega)

/-- A number is read back exactly when it is not negative and has five digits. -/
theorem decimals_signedVal_iff {x : Int} (low : -10000 < x) :
    signedVal (decimals x) = some x ↔ 0 ≤ x ∧ x ≤ 99999 := by
  constructor
  · intro same
    have bound : x < 10 ^ (decimals x).length := signedVal_lt same
    have length : (decimals x).length = 5 := rfl
    rw [length] at bound
    obtain ⟨c,rest,split,digit⟩ := decimals_head low (by omega)
    rw [split] at same
    have sign := signedVal_nonneg digit same
    omega
  · rintro ⟨sign,bound⟩
    obtain ⟨n,rfl⟩ := Int.eq_ofNat_of_zero_le sign
    have fits : n < 100000 := by omega
    rw [decimals_fixed fits]
    exact signedVal_fixedDigits fits
theorem decimals_digits {x : Int} (sign : 0 ≤ x) (bound : x ≤ 99999) : ∀ c ∈ decimals x, isAsciiDigit c = true := by
  obtain ⟨n,rfl⟩ := Int.eq_ofNat_of_zero_le sign
  rw [decimals_fixed (by omega)]
  intro c member
  exact fixedDigits_digit member

theorem hundredths_bounds {data : Int16} (range : InRange data) :
    -5500 ≤ hundredths data ∧ hundredths data ≤ 12500 ∧ (0 ≤ hundredths data ↔ 0 ≤ data.toInt) := by
  obtain ⟨low,high⟩ := range
  unfold hundredths
  by_cases negative : data.toInt < 0
  · rw [← Int.neg_neg (data.toInt * 25),Int.neg_tdiv,Int.tdiv_eq_ediv_of_nonneg (by omega)]
    omega
  · rw [Int.tdiv_eq_ediv_of_nonneg (by omega)]
    omega
theorem sensor_toInt {th tl : UInt8} (range : InRange (rawWord th tl)) :
    (ds18b20ReadDesignateTemper (some (th,tl))).toInt = hundredths (rawWord th tl) := by
  obtain ⟨low,high,-⟩ := hundredths_bounds range
  exact Int16.toInt_ofInt_of_le (by omega) (by omega)

/-- Once the sensors are found a record says what it should exactly when the uptime has five
    digits at most and no temperature is negative. -/
theorem temperature_record_iff (found : Bool) (timeRun : UInt32) (first second : UInt8 × UInt8) (r : TempRecord)
    (ready : r.fistsech = true ∨ found = true) (range1 : InRange (rawWord first.1 first.2))
    (range2 : InRange (rawWord second.1 second.2)) :
    RecordKept timeRun (rawWord first.1 first.2) (rawWord second.1 second.2)
        (ds1820Main found timeRun (some first) (some second) r).temp ↔
      timeRun.toNat ≤ 99999 ∧ 0 ≤ (rawWord first.1 first.2).toInt ∧ 0 ≤ (rawWord second.1 second.2).toInt := by
  have written : ¬ (r.fistsech = false ∧ found = false) := by
    rintro ⟨unready,none⟩
    rw [unready,none] at ready
    simp at ready
  have record : (ds1820Main found timeRun (some first) (some second) r).temp =
      assign (recordDigits timeRun (ds18b20ReadDesignateTemper (some first)) (ds18b20ReadDesignateTemper (some second)))
        (if r.fistsech then r.temp else assign recordFrame r.temp) := by
    rw [ds1820Main,if_neg written]
  obtain ⟨uptime,one,two⟩ := recordDigits_places timeRun (ds18b20ReadDesignateTemper (some first))
    (ds18b20ReadDesignateTemper (some second)) (if r.fistsech then r.temp else assign recordFrame r.temp)
  rw [← record] at uptime one two
  rw [sensor_toInt range1] at one
  rw [sensor_toInt range2] at two
  obtain ⟨low1,high1,sign1⟩ := hundredths_bounds range1
  obtain ⟨low2,high2,sign2⟩ := hundredths_bounds range2
  constructor
  · rintro ⟨-,decoded,decoded1,decoded2⟩
    rw [uptime] at decoded
    rw [one] at decoded1
    rw [two] at decoded2
    have time := (decimals_signedVal_iff (by omega)).mp decoded
    have temp1 := (decimals_signedVal_iff (by omega)).mp decoded1
    have temp2 := (decimals_signedVal_iff (by omega)).mp decoded2
    exact ⟨by omega,sign1.mp temp1.1,sign2.mp temp2.1⟩
  · rintro ⟨short,positive1,positive2⟩
    have sign1 := sign1.mpr positive1
    have sign2 := sign2.mpr positive2
    refine ⟨?_,?_,?_,?_⟩
    · intro i member
      refine .inl ?_
      rcases List.mem_append.mp member with front | last
      · rcases List.mem_append.mp front with time | temp1
        · exact decimals_digits (by omega) (by omega) _ (uptime ▸ List.mem_map_of_mem time)
        · exact decimals_digits sign1 (by omega) _ (one ▸ List.mem_map_of_mem temp1)
      · exact decimals_digits sign2 (by omega) _ (two ▸ List.mem_map_of_mem last)
    · rw [uptime]
      exact (decimals_signedVal_iff (by omega)).mpr ⟨by omega,by omega⟩
    · rw [one]
      exact (decimals_signedVal_iff (by omega)).mpr ⟨sign1,by omega⟩
    · rw [two]
      exact (decimals_signedVal_iff (by omega)).mpr ⟨sign2,by omega⟩

/-- 25.06 and 3 degrees after a day. -/
theorem temperature_record_iff_warm :
    RecordKept 86399 (rawWord 0x01 0x91) (rawWord 0x00 0x30)
        (ds1820Main true 86399 (some (0x01,0x91)) (some (0x00,0x30)) ⟨false,Block.fill 0⟩).temp ↔
      (86399 : UInt32).toNat ≤ 99999 ∧ 0 ≤ (rawWord 0x01 0x91).toInt ∧ 0 ≤ (rawWord 0x00 0x30).toInt :=
  temperature_record_iff true 86399 (0x01,0x91) (0x00,0x30) ⟨false,Block.fill 0⟩ (.inr rfl) (by decide) (by decide)
/-- A sixteenth of a degree below zero ends in an asterisk. -/
theorem temperature_record_frost :
    ¬ ∀ (found : Bool) (timeRun : UInt32) (first second : UInt8 × UInt8) (r : TempRecord),
      r.fistsech = true ∨ found = true → InRange (rawWord first.1 first.2) → InRange (rawWord second.1 second.2) →
        RecordKept timeRun (rawWord first.1 first.2) (rawWord second.1 second.2)
          (ds1820Main found timeRun (some first) (some second) r).temp := by
  intro kept
  have record := kept true 0 (0xFF,0xFF) (0x01,0x91) ⟨false,Block.fill 0⟩ (.inr rfl) (by decide) (by decide)
  obtain ⟨-,one,-⟩ := recordDigits_places 0 (ds18b20ReadDesignateTemper (some (0xFF,0xFF)))
    (ds18b20ReadDesignateTemper (some (0x01,0x91))) (assign recordFrame (Block.fill 0))
  have decoded : signedVal (decimals (ds18b20ReadDesignateTemper (some (0xFF,0xFF))).toInt) =
      some (hundredths (rawWord 0xFF 0xFF)) := one ▸ record.first
  exact absurd decoded (by decide)

end Net2Modbus
