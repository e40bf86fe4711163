import Mathlib.Data.List.TakeWhile
import SyntheticAccess.AccessFlags.Text

/-!
# Reading Flags Back

Flags are written as a text that is made to be read by people, and the text is
all that is stored of them. Reading it takes three steps, and each undoes one
step of writing. The text is cut at the bars and the blanks around the parts are
removed, which brings back the parts because none of them has a bar or a blank
of its own. Each part is read as a name or as a numeral. Then the flags of all
parts are united.

Nothing is lost in the union. A bit with a name is there because its name was
written, and the other bits are in the numeral. Nothing is added either, as the
name of the three level bits together, which could stand for more than was set,
is never written.

## Main definitions

* `AccessFlags.written`: The parts that are written, with what they stand for.
* `AccessFlags.Solid`: A part that can be found again between bars.

## Theorems

* `readHexadecimal_hexadecimal`: A number is read as it was written.
* `map_trimBlanks_splitOn`, `splitOn_solid`: Solid parts are found again.
* `readPart_of_mem_written`: A part is read as what it stands for.
* `unionAll_written`: The parts stand for all flags and no others.
* `ofText?_toText`: Flags are read as they were written.
-/

namespace SyntheticAccess

theorem hexDigitValue_digitChar {d : Nat} (h : d < 16) : hexDigitValue d.digitChar = some d := by
  have hall : ∀ e, e < 16 → hexDigitValue e.digitChar = some e := by decide
  exact hall d h

/-- A digit that is added at the end is the units of the number, and what was read
    before it counts sixteenfold. -/
theorem hexDigitsValue_append_singleton (seen : Nat) (cs : List Char) (c : Char) :
    hexDigitsValue seen (cs ++ [c]) =
      (hexDigitsValue seen cs).bind fun n => (hexDigitValue c).map fun d => 16 * n + d := by
  induction cs generalizing seen with
  | nil =>
      rw [List.nil_append, hexDigitsValue, hexDigitsValue, Option.bind_some]
      cases hexDigitValue c <;> rfl
  | cons b bs ih =>
      rw [List.cons_append, hexDigitsValue, hexDigitsValue, Option.bind_assoc]
      congr 1
      funext d
      exact ih (16 * seen + d)

/-- The digits are read from the most significant one on, so that the induction
    is on the number without its last digit. -/
theorem hexDigitsValue_hexadecimal (n : Nat) : hexDigitsValue 0 (hexadecimal n) = some n := by
  induction n using Nat.strongRecOn with
  | _ n ih =>
      rw [hexadecimal, Nat.toDigits_eq_if (by decide)]
      by_cases h : n < 16
      · rw [if_pos h, hexDigitsValue, hexDigitValue_digitChar h, Option.bind_some, hexDigitsValue,
          Nat.mul_zero, Nat.zero_add]
      · have hlt : n / 16 < n := Nat.div_lt_self (by omega) (by decide)
        -- All digits but the last are the numeral of the quotient by sixteen.
        have hread : hexDigitsValue 0 (Nat.toDigits 16 (n / 16)) = some (n / 16) := ih _ hlt
        rw [if_neg h, hexDigitsValue_append_singleton, hread, Option.bind_some,
          hexDigitValue_digitChar (Nat.mod_lt n (by decide)), Option.map_some, Nat.div_add_mod]

/-- A numeral in base sixteen is read as the number it was written for. -/
theorem readHexadecimal_hexadecimal (n : Nat) : readHexadecimal (hexadecimal n) = some n := by
  have hread := hexDigitsValue_hexadecimal n
  cases hdigits : hexadecimal n with
  | nil => exact absurd hdigits Nat.toDigits_ne_nil
  | cons c cs =>
      rw [hdigits] at hread
      -- A plus sign is not a digit, so the numeral does not start with one.
      have hplus : ¬ (c :: cs).head? = some '+' := by
        intro hhead
        rw [List.head?_cons, Option.some.injEq] at hhead
        rw [hhead, hexDigitsValue, show hexDigitValue '+' = none by decide] at hread
        cases hread
      rw [readHexadecimal, if_neg hplus]
      exact hread

example : hexadecimal 255 = ['f', 'f'] ∧ readHexadecimal ['f', 'f'] = some 255 := by
  decide +kernel

/-- A numeral has no characters but digits, which is why it can stand between bars. -/
theorem mem_hexadecimal {n : Nat} {c : Char} (h : c ∈ hexadecimal n) :
    ∃ d, d < 16 ∧ c = d.digitChar := by
  induction n using Nat.strongRecOn with
  | _ n ih =>
      rw [hexadecimal, Nat.toDigits_eq_if (by decide)] at h
      by_cases hn : n < 16
      · rw [if_pos hn, List.mem_singleton] at h
        exact ⟨n, hn, h⟩
      · rw [if_neg hn, List.mem_append, List.mem_singleton] at h
        rcases h with h | h
        · exact ih (n / 16) (Nat.div_lt_self (by omega) (by decide)) h
        · exact ⟨n % 16, Nat.mod_lt n (by decide), h⟩

namespace AccessFlags

/-- A part that can be found again between bars and blanks. -/
def Solid (part : List Char) : Prop :=
  part ≠ [] ∧ ∀ c ∈ part, isBlank c = false ∧ c ≠ '|'

instance (part : List Char) : Decidable (Solid part) :=
  decidable_of_iff (part ≠ [] ∧ part.all (fun c => !isBlank c && c != '|') = true)
    (and_congr_right' (by simp [List.all_eq_true]))

theorem isBlank_of_mem_space {c : Char} (h : c ∈ [' ']) : isBlank c = true := by
  rw [List.mem_singleton.mp h]
  decide

/-- The blanks around a solid part are removed, and nothing else is. -/
theorem trimBlanks_of_solid {part : List Char} (hpart : Solid part) {before : List Char}
    (after : List Char) (hbefore : ∀ c ∈ before, isBlank c = true)
    (hafter : ∀ c ∈ after, isBlank c = true) :
    trimBlanks (before ++ part ++ after) = part := by
  -- A solid text starts with a character that is not blank, and removing blanks from its front
  -- stops there.
  have hkept : ∀ cs ds, Solid cs → (cs ++ ds).dropWhile isBlank = cs ++ ds := by
    intro cs ds hcs
    cases cs with
    | nil => exact absurd rfl hcs.1
    | cons c cs =>
        have hc : ¬ isBlank c = true := by
          rw [(hcs.2 c List.mem_cons_self).1]
          exact Bool.false_ne_true
        rw [List.cons_append, List.dropWhile_cons_of_neg hc]
  -- The blanks behind are removed from the reversed text, and solidity does not depend on the
  -- direction.
  have hreverse : Solid part.reverse :=
    ⟨mt List.reverse_eq_nil_iff.mp hpart.1, fun c hc => hpart.2 c (List.mem_reverse.mp hc)⟩
  have hblank : ∀ c ∈ after.reverse, isBlank c = true :=
    fun c hc => hafter c (List.mem_reverse.mp hc)
  rw [trimBlanks, List.append_assoc, List.dropWhile_append_of_pos hbefore, hkept part after hpart,
    List.reverse_append, List.dropWhile_append_of_pos hblank]
  have hrest := hkept part.reverse [] hreverse
  rw [List.append_nil] at hrest
  rw [hrest, List.reverse_reverse]

/-- Solid parts are found again between the bars. What stands before the first
    part is open because after the first bar that is a blank. -/
theorem map_trimBlanks_splitOn (before : List Char) {part : List Char}
    {parts : List (List Char)} (hbefore : ∀ c ∈ before, isBlank c = true) (hbar : '|' ∉ before)
    (hparts : ∀ p ∈ part :: parts, Solid p) :
    ((before ++ " | ".toList.intercalate (part :: parts)).splitOn '|').map trimBlanks =
      part :: parts := by
  induction parts generalizing before part with
  | nil =>
      have hpart := hparts part List.mem_cons_self
      -- The last part has no bar after it and none within, so nothing is left to cut.
      have hnot : '|' ∉ before ++ part := by
        rw [List.mem_append]
        rintro (h | h)
        · exact hbar h
        · exact (hpart.2 '|' h).2 rfl
      have htrim := trimBlanks_of_solid hpart [] hbefore (fun _ h => nomatch h)
      rw [List.append_nil] at htrim
      rw [List.intercalate_singleton, List.splitOn_eq_singleton hnot, List.map_singleton, htrim]
  | cons next parts ih =>
      have hpart := hparts part List.mem_cons_self
      have hnot : '|' ∉ before ++ part ++ [' '] := by
        rw [List.mem_append, List.mem_append]
        rintro ((h | h) | h)
        · exact hbar h
        · exact (hpart.2 '|' h).2 rfl
        · revert h
          decide
      -- The text is cut at the bar after the first part. The blank before that bar goes with the
      -- part, and the blank behind it is in front of the next one.
      have hshape : before ++ " | ".toList.intercalate (part :: next :: parts) =
          (before ++ part ++ [' ']) ++
            '|' :: ([' '] ++ " | ".toList.intercalate (next :: parts)) := by
        rw [List.intercalate_cons_cons, show " | ".toList = [' ', '|', ' '] by decide]
        simp only [List.append_assoc, List.cons_append, List.nil_append]
      rw [hshape, List.splitOn_append_cons_self_of_not_mem hnot, List.map_cons,
        trimBlanks_of_solid hpart [' '] hbefore (fun _ => isBlank_of_mem_space),
        ih [' '] (fun _ => isBlank_of_mem_space) (by decide)
          fun p hp => hparts p (List.mem_cons_of_mem part hp)]

/-- Only blanks were removed, so a text of which nothing is left was all blank. -/
theorem isBlank_of_trimBlanks_eq_nil {cs : List Char} (h : trimBlanks cs = []) {c : Char}
    (hc : c ∈ cs) : isBlank c = true := by
  have hrest := List.dropWhile_eq_nil_iff.mp (List.reverse_eq_nil_iff.mp h)
  rw [← List.takeWhile_append_dropWhile (p := isBlank) (l := cs), List.mem_append] at hc
  rcases hc with hc | hc
  · exact List.mem_takeWhile_imp hc
  · exact hrest c (List.mem_reverse.mpr hc)

/-- Solid parts are found again, and the text they are in is not blank. -/
theorem splitOn_solid {parts : List (List Char)} (hne : parts ≠ [])
    (hparts : ∀ p ∈ parts, Solid p) :
    trimBlanks (" | ".toList.intercalate parts) ≠ [] ∧
      ((" | ".toList.intercalate parts).splitOn '|').map trimBlanks = parts := by
  cases parts with
  | nil => exact absurd rfl hne
  | cons part parts =>
      have hsplit := map_trimBlanks_splitOn [] (fun _ h => nomatch h) List.not_mem_nil hparts
      rw [List.nil_append] at hsplit
      refine ⟨fun hnil => ?_, hsplit⟩
      -- A blank text has no bars, so that its only part would be empty.
      have hbar : '|' ∉ " | ".toList.intercalate (part :: parts) :=
        fun hmem => absurd (isBlank_of_trimBlanks_eq_nil hnil hmem) (by decide)
      rw [List.splitOn_eq_singleton hbar, List.map_singleton, hnil] at hsplit
      exact (hparts part List.mem_cons_self).1 (List.cons.inj hsplit).1.symm

/-- The bits without a name. -/
def unnamed (f : AccessFlags) : AccessFlags :=
  f.without allNamed

/-- The parts that are written for a flag set, with the flags they stand for. -/
def written (f : AccessFlags) : List (String × AccessFlags) :=
  (named.filter fun e => f.has e.2) ++
    if f.unnamed.bits.toNat = 0 then []
    else [(String.ofList ('0' :: 'x' :: hexadecimal f.unnamed.bits.toNat), f.unnamed)]

theorem textParts_eq_map_written (f : AccessFlags) : f.textParts = f.written.map (·.1) := by
  rw [textParts, written, List.map_append, setNames, unnamed]
  by_cases h : (f.without allNamed).bits.toNat = 0
  · simp only [h, if_true, List.map_nil]
  · simp only [h, if_false, List.map_cons, List.map_nil]

/-- What is written is either a name whose bits are all set or the one numeral for
    the bits without a name. -/
theorem mem_written {f : AccessFlags} {e : String × AccessFlags} (h : e ∈ f.written) :
    (e ∈ named ∧ f.has e.2 = true) ∨
      e = (String.ofList ('0' :: 'x' :: hexadecimal f.unnamed.bits.toNat), f.unnamed) := by
  rcases List.mem_append.mp h with h | h
  · exact Or.inl (List.mem_filter.mp h)
  · by_cases hzero : f.unnamed.bits.toNat = 0
    · rw [if_pos hzero] at h
      cases h
    · rw [if_neg hzero, List.mem_singleton] at h
      exact Or.inr h

/-- Neither the names nor the numeral have bars or blanks in them. -/
theorem solid_of_mem_written {f : AccessFlags} {e : String × AccessFlags} (h : e ∈ f.written) :
    Solid e.1.toList := by
  rcases mem_written h with ⟨hnamed, -⟩ | rfl
  · have hall : ∀ e ∈ named, Solid e.1.toList := by decide +kernel
    exact hall e hnamed
  · have hdigits : ∀ d, d < 16 → isBlank d.digitChar = false ∧ d.digitChar ≠ '|' := by decide
    rw [String.toList_ofList]
    refine ⟨List.cons_ne_nil _ _, fun c hc => ?_⟩
    rcases List.mem_cons.mp hc with rfl | hc
    · decide
    · rcases List.mem_cons.mp hc with rfl | hc
      · decide
      · rcases mem_hexadecimal hc with ⟨d, hd, rfl⟩
        exact hdigits d hd

/-- A name is looked up in the table it was taken from, and the numeral is read as a
    number of sixteen bits, which is what it was. -/
theorem readPart_of_mem_written {f : AccessFlags} {e : String × AccessFlags}
    (h : e ∈ f.written) : readPart e.1.toList = some e.2 := by
  rcases mem_written h with ⟨hnamed, -⟩ | rfl
  · have hall : ∀ e ∈ named, readPart e.1.toList = some e.2 := by decide +kernel
    exact hall e hnamed
  · rw [String.toList_ofList, readPart, readHexadecimal_hexadecimal, Option.bind_some,
      if_pos f.unnamed.bits.isLt, BitVec.ofNat_toNat, BitVec.setWidth_eq]

theorem getLsbD_unionAll (fs : List AccessFlags) (i : Nat) :
    (unionAll fs).bits.getLsbD i = true ↔ ∃ f ∈ fs, f.bits.getLsbD i = true := by
  induction fs with
  | nil => simp [unionAll, bits_empty]
  | cons f fs ih =>
      simp only [List.mem_cons, or_and_right, exists_or, exists_eq_left, ← ih]
      rw [unionAll, List.foldr_cons, bits_union, BitVec.getLsbD_or, Bool.or_eq_true]
      rfl

/-- Every name but that of the three level bits together stands for one bit. -/
theorem has_of_mem_named {f : AccessFlags} {e : String × AccessFlags} {i : Nat}
    (he : e ∈ named) (hi : e.2.bits.getLsbD i = true) : f.has e.2 = f.bits.getLsbD i := by
  have hall : ∀ e ∈ named, ∃ n, n < 16 ∧ e.2 = ⟨BitVec.twoPow 16 n⟩ := by decide +kernel
  rcases hall e he with ⟨n, hn, heq⟩
  rw [heq, BitVec.getLsbD_twoPow, Bool.and_eq_true, decide_eq_true_eq, decide_eq_true_eq] at hi
  rw [heq, has_twoPow f hn, hi.2]

theorem getLsbD_unnamed {f : AccessFlags} {i : Nat} (hi : i < 16) :
    f.unnamed.bits.getLsbD i = true ↔
      f.bits.getLsbD i = true ∧ ¬ allNamed.bits.getLsbD i = true := by
  rw [unnamed, without, BitVec.getLsbD_and, BitVec.getLsbD_not, Bool.and_eq_true]
  simp [hi]

/-- The numeral is left out only when it would be zero. -/
theorem unnamed_mem_written {f : AccessFlags} {i : Nat} (hi : f.unnamed.bits.getLsbD i = true) :
    f.unnamed ∈ f.written.map (·.2) := by
  have hne : ¬ f.unnamed.bits.toNat = 0 := by
    intro hzero
    rw [BitVec.getLsbD, hzero, Nat.zero_testBit] at hi
    cases hi
  rw [written, if_neg hne, List.map_append]
  exact List.mem_append_right _ (List.mem_singleton_self _)

/-- The parts that are written stand for all flags together and for no others, which
    is seen bit by bit. -/
theorem unionAll_written (f : AccessFlags) : unionAll (f.written.map (·.2)) = f := by
  have hbits : (unionAll (f.written.map (·.2))).bits = f.bits := by
    apply BitVec.eq_of_getLsbD_eq
    intro i hi
    rw [Bool.eq_iff_iff, getLsbD_unionAll]
    constructor
    · -- A bit that a part stands for was set. A name was written because its bit is, and the
      -- numeral has only bits of the set.
      rintro ⟨g, hg, hbit⟩
      rcases List.mem_map.mp hg with ⟨e, he, rfl⟩
      rcases mem_written he with ⟨hnamed, hhas⟩ | rfl
      · rw [← has_of_mem_named hnamed hbit]
        exact hhas
      · exact ((getLsbD_unnamed hi).mp hbit).1
    · intro hbit
      -- A bit that is set is covered by a name, which then was written, or it is in the numeral.
      by_cases hnamed : allNamed.bits.getLsbD i = true
      · rcases (getLsbD_unionAll _ i).mp hnamed with ⟨g, hg, hgbit⟩
        rcases List.mem_map.mp hg with ⟨e, he, rfl⟩
        have hhas : f.has e.2 = true := (has_of_mem_named he hgbit).trans hbit
        have hwritten : e ∈ f.written :=
          List.mem_append_left _ (List.mem_filter.mpr ⟨he, hhas⟩)
        exact ⟨e.2, List.mem_map_of_mem hwritten, hgbit⟩
      · have hunnamed := (getLsbD_unnamed hi).mpr ⟨hbit, hnamed⟩
        exact ⟨f.unnamed, unnamed_mem_written hunnamed, hunnamed⟩
  exact congrArg AccessFlags.mk hbits

theorem mapM_readPart {es : List (String × AccessFlags)}
    (h : ∀ e ∈ es, readPart e.1.toList = some e.2) :
    (es.map (·.1.toList)).mapM readPart = some (es.map (·.2)) := by
  induction es with
  | nil => rfl
  | cons e es ih =>
      rw [List.map_cons, List.mapM_cons, h e List.mem_cons_self,
        ih fun d hd => h d (List.mem_cons_of_mem e hd)]
      rfl

/-- Flags are read as they were written, whichever of the sixteen bits are set. -/
theorem ofText?_toText (f : AccessFlags) : ofText? f.toText = some f := by
  have htext : f.toText.toList = " | ".toList.intercalate (f.written.map (·.1.toList)) := by
    rw [toText, textParts_eq_map_written, String.toList_intercalate, List.map_map]
    rfl
  have hunion := unionAll_written f
  by_cases hempty : f.written = []
  · -- No part is written for the empty set, and an empty text is read as it.
    rw [hempty] at htext hunion
    rw [ofText?, htext, if_pos (by decide), ← hunion]
    rfl
  · have hsolid : ∀ p ∈ f.written.map (·.1.toList), Solid p := by
      intro p hp
      rcases List.mem_map.mp hp with ⟨e, he, rfl⟩
      exact solid_of_mem_written he
    rcases splitOn_solid (mt List.map_eq_nil_iff.mp hempty) hsolid with ⟨hblank, hsplit⟩
    -- Cutting and removing blanks brings back the parts, and each of them is read on its own.
    have hread : (f.toText.toList.splitOn '|').mapM (fun part => readPart (trimBlanks part)) =
        some (f.written.map (·.2)) := by
      calc (f.toText.toList.splitOn '|').mapM (fun part => readPart (trimBlanks part))
          = ((f.toText.toList.splitOn '|').map trimBlanks).mapM readPart := by
            rw [List.mapM_map]
            rfl
        _ = (f.written.map (·.1.toList)).mapM readPart := by rw [htext, hsplit]
        _ = some (f.written.map (·.2)) := mapM_readPart fun _ he => readPart_of_mem_written he
    rw [ofText?, if_neg (htext ▸ hblank), hread, Option.map_some, hunion]

/-- One flag has a name here and the other has none. -/
example : toText ⟨0x1020⟩ = "SYNTHETIC | 0x20" ∧ ofText? "SYNTHETIC | 0x20" = some ⟨0x1020⟩ := by
  decide +kernel

end AccessFlags

end SyntheticAccess
