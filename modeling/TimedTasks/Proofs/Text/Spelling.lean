import Mathlib.Data.List.Induction
import Mathlib.Data.Nat.Digits.Defs
import TimedTasks.Config.Policy
import TimedTasks.Text.Number

/-!
# What a text spells

The readers of numbers and of failure policies strip blanks from the ends of a text, and then look
at what is left.  Here it is said the other way round, which texts they accept: those that are put
together from blanks, the word itself, and blanks again (`Text.Pads`).  A number is spelt by an
optional plus sign and one or more digits whose value fits into a word (`Text.Spells`), a policy by
its name in any mixture of ASCII capitals and small letters (`FailurePolicy.IsNamedBy`).

The readers accept these texts and no others (`Text.readNumber_strip_eq_some`,
`FailurePolicy.read_eq_ok`).
-/

namespace TimedTasks

namespace Text

variable {text : String} {word : List Char} {c : Char}

/-! ## Blanks at the ends -/

/-- A text is a word with blank characters before it and behind it, or without. -/
def Pads (text : String) (word : List Char) : Prop :=
  ∃ before after, text.toList = before ++ word ++ after ∧ (∀ c ∈ before, isBlank c = true) ∧
    ∀ c ∈ after, isBlank c = true

theorem toList_strip (text : String) : (strip text).toList = stripChars text.toList :=
  String.toList_ofList

theorem pads_strip (text : String) : Pads text (strip text).toList := by
  let front := text.toList.takeWhile isBlank
  let rest := text.toList.dropWhile isBlank
  let back := (rest.reverse.takeWhile isBlank).reverse
  have hrest : stripChars text.toList ++ back = rest := by
    rw [stripChars, ← List.reverse_append, List.takeWhile_append_dropWhile, List.reverse_reverse]
  refine ⟨front, back, ?_, fun c hc => List.all_eq_true.mp List.all_takeWhile c hc, fun c hc =>
    List.all_eq_true.mp List.all_takeWhile c (List.mem_reverse.mp hc)⟩
  rw [toList_strip, List.append_assoc, hrest, List.takeWhile_append_dropWhile]

theorem dropWhile_padded {before : List Char} (hbefore : ∀ c ∈ before, isBlank c = true)
    (hword : ∀ c ∈ word, isBlank c = false) (hne : word ≠ []) (after : List Char) :
    (before ++ word ++ after).dropWhile isBlank = word ++ after := by
  obtain ⟨first, rest, rfl⟩ := List.exists_cons_of_ne_nil hne
  have hfirst : ¬ isBlank first = true := by simp [hword first (List.mem_cons_self ..)]
  rw [List.append_assoc, List.dropWhile_append_of_pos hbefore, List.cons_append,
    List.dropWhile_cons_of_neg hfirst]

theorem Pads.toList_strip (hpads : Pads text word) (hword : ∀ c ∈ word, isBlank c = false)
    (hne : word ≠ []) : (strip text).toList = word := by
  obtain ⟨before, after, htext, hbefore, hafter⟩ := hpads
  have hback : (after.reverse ++ word.reverse ++ []).dropWhile isBlank = word.reverse ++ [] :=
    dropWhile_padded (fun c hc => hafter c (List.mem_reverse.mp hc))
      (fun c hc => hword c (List.mem_reverse.mp hc)) (mt List.reverse_eq_nil_iff.mp hne) []
  rw [List.append_nil, List.append_nil] at hback
  rw [Text.toList_strip, stripChars, htext, dropWhile_padded hbefore hword hne,
    List.reverse_append, hback, List.reverse_reverse]

/-! ## Numbers -/

/-- A text spells a number: blanks, perhaps a plus sign, one or more digits, and blanks again.
The number is the value of the digits, and it fits into a word. -/
def Spells (text : String) (number : Nat) : Prop :=
  ∃ sign digits, Pads text (sign ++ digits) ∧ (sign = [] ∨ sign = ['+']) ∧ digits ≠ [] ∧
    (∀ c ∈ digits, '0' ≤ c ∧ c ≤ '9') ∧
    number = Nat.ofDigits 10 (digits.reverse.map fun c => c.toNat - '0'.toNat) ∧ number < 2 ^ 64

theorem isDigit_iff : c.isDigit = true ↔ '0' ≤ c ∧ c ≤ '9' := by
  simp [Char.isDigit, Char.le_def]

theorem isBlank_eq_false_of_isDigit (hdigit : c.isDigit = true) : isBlank c = false := by
  obtain ⟨hlow, hhigh⟩ := isDigit_iff.mp hdigit
  have hlow : 48 ≤ c.toNat := hlow
  have hhigh : c.toNat ≤ 57 := hhigh
  simp only [isBlank, Bool.or_eq_false_iff, Bool.and_eq_false_iff, decide_eq_false_iff_not,
    beq_eq_false_iff_ne]
  omega

theorem digitsValue_eq (digits : List Char) :
    digitsValue digits =
      Nat.ofDigits 10 (digits.reverse.map fun c => c.toNat - '0'.toNat) := by
  induction digits using List.reverseRecOn with
  | nil => rfl
  | append_singleton digits c ih =>
      rw [digitsValue, List.foldl_append, List.foldl_cons, List.foldl_nil, ← digitsValue, ih,
        List.reverse_append, List.reverse_singleton, List.singleton_append, List.map_cons,
        Nat.ofDigits_cons, Nat.add_comm]

theorem exists_sign (text : List Char) :
    ∃ sign, text = sign ++ unsigned text ∧ (sign = [] ∨ sign = ['+']) := by
  unfold unsigned
  split
  · exact ⟨['+'], rfl, Or.inr rfl⟩
  · exact ⟨[], rfl, Or.inl rfl⟩

/-- What `readNumber` accepts is a plus sign, or none, and digits. -/
theorem readNumber_eq_some {number : Nat} :
    readNumber text = some number ↔
      ∃ sign digits, text.toList = sign ++ digits ∧ (sign = [] ∨ sign = ['+']) ∧ digits ≠ [] ∧
        digits.all Char.isDigit = true ∧ number = digitsValue digits ∧ number < wordSize := by
  constructor
  · intro hread
    simp only [readNumber] at hread
    split at hread
    · rename_i hdigits
      obtain ⟨hne, hall, hlt⟩ := hdigits
      obtain rfl := Option.some.inj hread
      obtain ⟨sign, htext, hsign⟩ := exists_sign text.toList
      exact ⟨sign, _, htext, hsign, hne, hall, rfl, hlt⟩
    · simp at hread
  · rintro ⟨sign, digits, htext, hsign, hne, hall, rfl, hlt⟩
    have hunsigned : unsigned text.toList = digits := by
      rcases hsign with rfl | rfl
      · rw [htext, List.nil_append]
        unfold unsigned
        split
        · simp at hall
        · rfl
      · rw [htext]
        rfl
    simp only [readNumber, hunsigned]
    rw [if_pos ⟨hne, hall, hlt⟩]

/-- With the blanks stripped, exactly the texts that spell a number can be read. -/
theorem readNumber_strip_eq_some {number : Nat} :
    readNumber (strip text) = some number ↔ Spells text number := by
  rw [readNumber_eq_some]
  constructor
  · rintro ⟨sign, digits, htext, hsign, hne, hall, rfl, hlt⟩
    exact ⟨sign, digits, htext ▸ pads_strip text, hsign, hne,
      fun c hc => isDigit_iff.mp (List.all_eq_true.mp hall c hc), digitsValue_eq digits, hlt⟩
  · rintro ⟨sign, digits, hpads, hsign, hne, hdigits, hnumber, hlt⟩
    have hall : ∀ c ∈ digits, c.isDigit = true := fun c hc => isDigit_iff.mpr (hdigits c hc)
    have hword : ∀ c ∈ sign ++ digits, isBlank c = false := by
      intro c hc
      rcases List.mem_append.mp hc with hc | hc
      · rcases hsign with rfl | rfl
        · exact absurd hc List.not_mem_nil
        · rw [List.mem_singleton.mp hc]
          decide
      · exact isBlank_eq_false_of_isDigit (hall c hc)
    refine ⟨sign, digits, hpads.toList_strip hword (by simp [hne]), hsign, hne,
      List.all_eq_true.mpr hall, hnumber.trans (digitsValue_eq digits).symm, hlt⟩

/-- No text spells two numbers. -/
theorem Spells.unique {first second : Nat} (hfirst : Spells text first)
    (hsecond : Spells text second) : first = second :=
  Option.some.inj ((readNumber_strip_eq_some.mpr hfirst).symm.trans
    (readNumber_strip_eq_some.mpr hsecond))

example : Spells "\t +007 " 7 := readNumber_strip_eq_some.mp (by decide)

end Text

/-! ## Policies -/

namespace FailurePolicy

variable {text : String} {policy : FailurePolicy}

/-- A text names a policy: its name stands between blanks, whether in capitals or not. -/
def IsNamedBy (policy : FailurePolicy) (text : String) : Prop :=
  ∃ word, Text.Pads text word ∧ word.map Char.toLower = policy.name.toList

theorem ofName?_eq_some {name : String} : ofName? name = some policy ↔ name = policy.name := by
  constructor
  · intro hfound
    unfold ofName? at hfound
    have hname := List.find?_some hfound
    exact (beq_iff_eq.mp hname).symm
  · rintro rfl
    exact ofName?_name policy

theorem toLower_of_isBlank {c : Char} (hblank : Text.isBlank c = true) : c.toLower = c := by
  have hcapital : ¬ (c.val ≥ 'A'.val ∧ c.val ≤ 'Z'.val) := by
    rintro ⟨hlow, hhigh⟩
    have hlow : 65 ≤ c.toNat := hlow
    have hhigh : c.toNat ≤ 90 := hhigh
    simp only [Text.isBlank, Bool.or_eq_true, Bool.and_eq_true, decide_eq_true_eq,
      beq_iff_eq] at hblank
    omega
  exact dif_neg hcapital

/-- The names of the policies have no blanks in them, in capitals or not. -/
theorem isBlank_eq_false_of_name {word : List Char}
    (hword : word.map Char.toLower = policy.name.toList) {c : Char} (hc : c ∈ word) :
    Text.isBlank c = false := by
  have hname : policy.name.toList.all (fun c => !Text.isBlank c) = true := by
    cases policy <;> decide
  by_contra hblank
  have hblank : Text.isBlank c = true := by simpa using hblank
  have hmem : c ∈ policy.name.toList := by
    rw [← hword, ← toLower_of_isBlank hblank]
    exact List.mem_map_of_mem hc
  simpa [hblank] using List.all_eq_true.mp hname c hmem

theorem read_eq_ok : read text = .ok policy ↔ policy.IsNamedBy text := by
  have hread : read text = .ok policy ↔
      ofName? (Text.lowerAscii (Text.strip text)) = some policy := by
    simp only [read]
    split <;> simp_all
  rw [hread, ofName?_eq_some, String.ext_iff, Text.lowerAscii, String.toList_ofList]
  constructor
  · intro hname
    exact ⟨(Text.strip text).toList, Text.pads_strip text, hname⟩
  · rintro ⟨word, hpads, hname⟩
    have hne : word ≠ [] := by
      rintro rfl
      cases policy <;> exact absurd hname (by decide)
    rwa [hpads.toList_strip (fun c hc => isBlank_eq_false_of_name hname hc) hne]

theorem read_eq_error {fault : ConfigFault} :
    read text = .error fault ↔
      (∀ policy : FailurePolicy, ¬ policy.IsNamedBy text) ∧
        fault = .unknownPolicy (Text.lowerAscii (Text.strip text)) := by
  cases hread : read text with
  | ok policy =>
      constructor
      · simp
      · intro hnone
        exact absurd (read_eq_ok.mp hread) (hnone.1 policy)
  | error found =>
      have hfound : found = .unknownPolicy (Text.lowerAscii (Text.strip text)) := by
        simp only [read] at hread
        split at hread
        · exact nomatch hread
        · exact (Except.error.inj hread).symm
      have hnone : ∀ policy : FailurePolicy, ¬ policy.IsNamedBy text := by
        intro policy hnamed
        exact nomatch hread.symm.trans (read_eq_ok.mpr hnamed)
      rw [Except.error.injEq, hfound]
      exact ⟨fun heq => ⟨hnone, heq.symm⟩, fun hboth => hboth.2.symm⟩

theorem IsNamedBy.unique {other : FailurePolicy} (hnamed : policy.IsNamedBy text)
    (hother : other.IsNamedBy text) : policy = other :=
  Except.ok.inj ((read_eq_ok.mpr hnamed).symm.trans (read_eq_ok.mpr hother))

end FailurePolicy

end TimedTasks
