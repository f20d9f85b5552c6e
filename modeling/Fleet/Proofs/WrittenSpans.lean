import Fleet.Proofs.Rounding
import Fleet.Scaling.Settings
import Mathlib.Data.List.TakeWhile
import Mathlib.Data.Nat.Digits.Defs
import Mathlib.Tactic.Tauto

/-! Which texts are spans of time: a numeral and a unit with blanks around and between them, which
do not count. -/
namespace Fleet

namespace Text

variable {s pre post : List Char} {c : Char}

/-- Nothing but white space. -/
def Blank (s : List Char) : Prop := ∀ c ∈ s, isBlank c = true

/-- Neither end is white space. -/
structure Tight (s : List Char) : Prop where
  head : ∀ c ∈ s.head?, isBlank c = false
  last : ∀ c ∈ s.getLast?, isBlank c = false

lemma Blank.nil : Blank [] := fun _ h => nomatch h

lemma Blank.append (hpre : Blank pre) (hpost : Blank post) : Blank (pre ++ post) := fun c hc =>
  (List.mem_append.1 hc).elim (hpre c) (hpost c)

lemma blank_takeWhile (s : List Char) : Blank (s.takeWhile isBlank) := fun _ h =>
  List.mem_takeWhile_imp h

lemma trimLeft_append_of_blank (hpre : Blank pre) (s : List Char) :
    trimLeft (pre ++ s) = trimLeft s :=
  List.dropWhile_append_of_pos hpre

lemma trimRight_append_of_blank (hpost : Blank post) (s : List Char) :
    trimRight (s ++ post) = trimRight s := by
  rw [trimRight, List.reverse_append,
    trimLeft_append_of_blank fun c hc => hpost c (List.mem_reverse.1 hc), trimRight]

lemma trimRight_eq_self (h : ∀ c ∈ s.getLast?, isBlank c = false) : trimRight s = s := by
  rw [trimRight, trimLeft_eq_self (by rwa [List.head?_reverse]), List.reverse_reverse]

lemma tight_of_forall (h : ∀ c ∈ s, isBlank c = false) : Tight s :=
  ⟨fun c hc => h c (List.mem_of_mem_head? hc), fun c hc => h c (List.mem_of_getLast? hc)⟩

lemma Tight.append {t : List Char} (hs : Tight s) (hsne : s ≠ []) (gap : List Char) (ht : Tight t)
    (htne : t ≠ []) : Tight (s ++ gap ++ t) where
  head c h := by
    rw [List.append_assoc, List.head?_append_of_ne_nil _ hsne] at h
    exact hs.head c h
  last c h := by
    rw [List.getLast?_append_of_ne_nil _ htne] at h
    exact ht.last c h

/-- Blanks around a text are what is dropped from it. -/
theorem trim_append (hpre : Blank pre) (hs : Tight s) (hpost : Blank post) :
    trim (pre ++ s ++ post) = s := by
  rw [trim, List.append_assoc, trimLeft_append_of_blank hpre]
  cases s with
  | nil =>
    rw [List.nil_append, ← List.append_nil post, trimLeft_append_of_blank hpost]
    rfl
  | cons c rest =>
    rw [trimLeft_eq_self (fun d hd => hs.head d (by simpa using hd)),
      trimRight_append_of_blank hpost, trimRight_eq_self hs.last]

/-- Of a text without blanks at its end there are left none at either end. -/
lemma tight_trimLeft (hlast : ∀ c ∈ s.getLast?, isBlank c = false) : Tight (trimLeft s) where
  head _ h := isBlank_head_trimLeft h
  last c h := by
    have hsplit : s.takeWhile isBlank ++ trimLeft s = s := List.takeWhile_append_dropWhile
    refine hlast c ?_
    rw [← hsplit, List.getLast?_append, h]
    rfl

lemma last_trim (h : c ∈ (trim s).getLast?) : isBlank c = false := by
  rw [trim, trimRight, List.getLast?_reverse] at h
  exact isBlank_head_trimLeft h

/-- A text without blanks at its end is some blanks and what is left without them. -/
lemma exists_blank_append_trim (hlast : ∀ c ∈ s.getLast?, isBlank c = false) :
    ∃ gap, Blank gap ∧ s = gap ++ trim s := by
  refine ⟨s.takeWhile isBlank, blank_takeWhile s, ?_⟩
  rw [trim, trimRight_eq_self (tight_trimLeft hlast).last]
  exact List.takeWhile_append_dropWhile.symm

end Text

namespace Decimal

variable {n whole fraction : List Char} {v : Rat}

/-- Digits, and at most one point among, before or after them. -/
structure IsNumeral (n : List Char) : Prop where
  chars : ∀ c ∈ n, c.isDigit = true ∨ c = '.'
  points : n.count '.' ≤ 1
  digit : ∃ c ∈ n, c.isDigit = true

lemma IsNumeral.ne_nil {n : List Char} (h : IsNumeral n) : n ≠ [] := by
  obtain ⟨c, hc, -⟩ := h.digit
  exact List.ne_nil_of_mem hc

/-- The number of digits behind the point. -/
def places (n : List Char) : Nat := (n.dropWhile (· != '.')).length - 1

/-- The number of which a numeral has the decimal digits. -/
def value (n : List Char) : Rat :=
  (Nat.ofDigits 10 ((n.filter Char.isDigit).reverse.map fun c => c.toNat - '0'.toNat) : Nat) /
    10 ^ places n

lemma value_nonneg (n : List Char) : 0 ≤ value n := by
  unfold value
  positivity

lemma natOfDigits_eq (ds : List Char) :
    natOfDigits ds = Nat.ofDigits 10 (ds.reverse.map fun c => c.toNat - '0'.toNat) := by
  rw [natOfDigits, List.foldl_eq_foldr_reverse, Nat.ofDigits_eq_foldr, List.foldr_map]
  simp only [Nat.cast_id]
  congr 1
  funext d m
  omega

lemma point_not_mem (h : ∀ c ∈ n, c.isDigit = true) : '.' ∉ n := fun hmem =>
  nomatch h '.' hmem

lemma all_ne_point (h : ∀ c ∈ n, c.isDigit = true) : ∀ c ∈ n, (c != '.') = true := fun _ hc =>
  bne_iff_ne.2 fun heq => point_not_mem h (heq ▸ hc)

lemma value_of_digits (h : ∀ c ∈ whole, c.isDigit = true) : value whole = ofParts whole [] := by
  have hplaces : places whole = 0 := by
    rw [places, List.dropWhile_eq_nil_iff.2 (all_ne_point h)]
    rfl
  rw [value, hplaces, List.filter_eq_self.2 h, ofParts, natOfDigits_eq, List.append_nil]
  simp

lemma value_of_point (hwhole : ∀ c ∈ whole, c.isDigit = true)
    (hfraction : ∀ c ∈ fraction, c.isDigit = true) :
    value (whole ++ '.' :: fraction) = ofParts whole fraction := by
  have hplaces : places (whole ++ '.' :: fraction) = fraction.length := by
    rw [places, List.dropWhile_append_of_pos (all_ne_point hwhole)]
    simp
  have hdigits : (whole ++ '.' :: fraction).filter Char.isDigit = whole ++ fraction := by
    rw [List.filter_append, List.filter_cons_of_neg (by decide), List.filter_eq_self.2 hwhole,
      List.filter_eq_self.2 hfraction]
  rw [value, hplaces, hdigits, ofParts, natOfDigits_eq]
  simp

lemma isNumeral_digits (h : ∀ c ∈ whole, c.isDigit = true) : IsNumeral whole ↔ whole ≠ [] := by
  constructor
  · rintro ⟨-, -, c, hc, -⟩
    exact List.ne_nil_of_mem hc
  · intro hne
    have hc := List.head_mem hne
    have hpoints : whole.count '.' = 0 := List.count_eq_zero_of_not_mem (point_not_mem h)
    exact ⟨fun c hc => .inl (h c hc), by omega, _, hc, h _ hc⟩

lemma isNumeral_point (h : ∀ c ∈ whole, c.isDigit = true) :
    IsNumeral (whole ++ '.' :: fraction) ↔
      (∀ c ∈ fraction, c.isDigit = true) ∧ whole ++ fraction ≠ [] := by
  constructor
  · rintro ⟨hchars, hpoints, c, hc, hdigit⟩
    rw [List.count_append, List.count_cons_self] at hpoints
    have hone : '.' ∉ fraction := List.count_eq_zero.1 (by omega)
    refine ⟨fun d hd => (hchars d (by simp [hd])).resolve_right fun heq => hone (heq ▸ hd), ?_⟩
    refine List.ne_nil_of_mem (a := c) ?_
    rcases List.mem_append.1 hc with hc | hc
    · exact List.mem_append_left _ hc
    · rcases List.mem_cons.1 hc with rfl | hc
      · exact nomatch hdigit
      · exact List.mem_append_right _ hc
  · rintro ⟨hfraction, hne⟩
    have hdigits : ∀ c ∈ whole ++ fraction, c.isDigit = true :=
      List.forall_mem_append.2 ⟨h, hfraction⟩
    have hmem : ∀ c ∈ whole ++ fraction, c ∈ whole ++ '.' :: fraction := fun c hc =>
      (List.mem_append.1 hc).elim (List.mem_append_left _) fun hc =>
        List.mem_append_right _ (List.mem_cons_of_mem _ hc)
    refine ⟨fun c hc => ?_, ?_, _, hmem _ (List.head_mem hne), hdigits _ (List.head_mem hne)⟩
    · rcases List.mem_append.1 hc with hc | hc
      · exact .inl (h c hc)
      · exact (List.mem_cons.1 hc).symm.imp_left (hfraction c)
    · rw [List.count_append, List.count_cons_self, List.count_eq_zero_of_not_mem (point_not_mem h),
        List.count_eq_zero_of_not_mem (point_not_mem hfraction)]

lemma not_isNumeral_of_mem {c : Char} (hc : c ∈ n) (hdigit : c.isDigit = false) (hpoint : c ≠ '.') :
    ¬IsNumeral n := fun hn => by
  rcases hn.chars c hc with h | h
  · exact Bool.false_ne_true (hdigit.symm.trans h)
  · exact hpoint h

/-- Numerals are read, each as its value, and nothing else is. -/
theorem numeral?_eq_some_iff : numeral? n = some v ↔ IsNumeral n ∧ value n = v := by
  have hsplit : n.takeWhile Char.isDigit ++ n.dropWhile Char.isDigit = n :=
    List.takeWhile_append_dropWhile
  have hwhole : ∀ c ∈ n.takeWhile Char.isDigit, c.isDigit = true := fun _ h =>
    List.mem_takeWhile_imp h
  have hhead : ∀ c ∈ (n.dropWhile Char.isDigit).head?, c.isDigit = false := fun c h => by
    have hnot := List.head?_dropWhile_not Char.isDigit n
    rwa [Option.mem_def.1 h] at hnot
  unfold numeral?
  dsimp only
  generalize n.takeWhile Char.isDigit = whole at hsplit hwhole ⊢
  generalize n.dropWhile Char.isDigit = rest at hsplit hhead ⊢
  subst hsplit
  -- the number ends, goes on behind a point, or meets something else
  split
  · rw [List.append_nil, isNumeral_digits hwhole, value_of_digits hwhole]
    split_ifs with hnil <;> simp [hnil]
  · rename_i fraction
    rw [isNumeral_point hwhole]
    split_ifs with h
    · simp_all [value_of_point hwhole]
    · simp_all
  · rename_i hnil hpoint
    obtain ⟨c, tail, rfl⟩ := List.exists_cons_of_ne_nil hnil
    have hc : c ≠ '.' := fun heq => hpoint tail (by rw [heq])
    have hn := not_isNumeral_of_mem (n := whole ++ c :: tail) (by simp) (hhead c rfl) hc
    simp [hn]

end Decimal

namespace Duration

variable {s n u : List Char} {unit : TimeUnit} {c : Char} {d : Duration}

/-- How units are written. Without one a number counts seconds. -/
inductive Suffix : List Char → TimeUnit → Prop
  | milliseconds : Suffix ['m', 's'] .millisecond
  | bare : Suffix [] .second
  | seconds : Suffix ['s'] .second
  | minutes : Suffix ['m'] .minute
  | hours : Suffix ['h'] .hour

lemma ofSuffix?_eq_some_iff : TimeUnit.ofSuffix? u = some unit ↔ Suffix u unit := by
  constructor
  · intro h
    unfold TimeUnit.ofSuffix? at h
    split at h <;> cases h <;> constructor
  · rintro (_ | _ | _ | _ | _) <;> rfl

lemma Suffix.letter (h : Suffix u unit) (hc : c ∈ u) : c = 'm' ∨ c = 's' ∨ c = 'h' := by
  cases h <;> simp only [List.mem_cons, List.not_mem_nil, or_false] at hc <;> tauto

lemma Suffix.tight (h : Suffix u unit) : Text.Tight u :=
  Text.tight_of_forall fun c hc => by
    rcases h.letter hc with rfl | rfl | rfl <;> rfl

lemma Suffix.not_numeralChar (h : Suffix u unit) (hc : c ∈ u) : isNumeralChar c = false := by
  rcases h.letter hc with rfl | rfl | rfl <;> rfl

lemma isBlank_eq_false_of_isNumeralChar (h : isNumeralChar c = true) : Text.isBlank c = false := by
  rw [isNumeralChar, Bool.or_eq_true, beq_iff_eq] at h
  rcases h with h | rfl
  · have hcode : 48 ≤ c.toNat ∧ c.toNat ≤ 57 := by
      simpa [Char.isDigit, UInt32.le_iff_toNat_le] using h
    simp only [Text.isBlank, Bool.or_eq_false_iff, Bool.and_eq_false_iff, decide_eq_false_iff_not,
      beq_eq_false_iff_ne]
    omega
  · decide

/-- The text is a numeral and a unit, with blanks between them and around them. -/
structure Spells (s n u : List Char) (unit : TimeUnit) : Prop where
  numeral : Decimal.IsNumeral n
  suffix : Suffix u unit
  trimmed : ∃ gap, Text.Blank gap ∧ Text.trim s = n ++ gap ++ u

lemma isNumeralChar_of_mem (hn : Decimal.IsNumeral n) (hc : c ∈ n) : isNumeralChar c = true := by
  rcases hn.chars c hc with h | rfl
  · simp [isNumeralChar, h]
  · rfl

/-- Where the reader takes a text apart. -/
lemma Spells.parts (h : Spells s n u unit) :
    (Text.trim s).takeWhile isNumeralChar = n ∧
      Text.trim ((Text.trim s).dropWhile isNumeralChar) = u := by
  obtain ⟨gap, hgap, htrim⟩ := h.trimmed
  have hn : ∀ c ∈ n, isNumeralChar c = true := fun c => isNumeralChar_of_mem h.numeral
  have hrest : ∀ c ∈ gap ++ u, ¬isNumeralChar c = true := fun c hc => by
    rcases List.mem_append.1 hc with hc | hc
    · exact fun hnum => Bool.false_ne_true
        ((isBlank_eq_false_of_isNumeralChar hnum).symm.trans (hgap c hc))
    · rw [h.suffix.not_numeralChar hc]
      exact Bool.false_ne_true
  have htake : (gap ++ u).takeWhile isNumeralChar = [] :=
    List.takeWhile_eq_nil_iff.2 fun _ => hrest _ (List.getElem_mem _)
  have hdrop : (gap ++ u).dropWhile isNumeralChar = gap ++ u :=
    List.dropWhile_eq_self_iff.2 fun _ => hrest _ (List.getElem_mem _)
  rw [htrim, List.append_assoc, List.takeWhile_append_of_pos hn, List.dropWhile_append_of_pos hn,
    htake, hdrop, List.append_nil]
  have hu := Text.trim_append hgap h.suffix.tight Text.Blank.nil
  rw [List.append_nil] at hu
  exact ⟨rfl, hu⟩

/-- The text that the reader takes apart into a numeral and a unit consists of them. -/
lemma spells_of_parts (hn : Decimal.IsNumeral ((Text.trim s).takeWhile isNumeralChar))
    (hu : Suffix (Text.trim ((Text.trim s).dropWhile isNumeralChar)) unit) :
    Spells s ((Text.trim s).takeWhile isNumeralChar)
      (Text.trim ((Text.trim s).dropWhile isNumeralChar)) unit := by
  have hsplit : (Text.trim s).takeWhile isNumeralChar ++ (Text.trim s).dropWhile isNumeralChar =
      Text.trim s := List.takeWhile_append_dropWhile
  obtain ⟨gap, hgap, hrest⟩ := Text.exists_blank_append_trim
    (s := (Text.trim s).dropWhile isNumeralChar) fun c hc => by
      refine Text.last_trim (s := s) ?_
      rw [← hsplit, List.getLast?_append, hc]
      rfl
  refine ⟨hn, hu, gap, hgap, ?_⟩
  rw [List.append_assoc, ← hrest, hsplit]

/-- A numeral and a unit make the span of the number and the unit. -/
lemma Spells.ofChars?_eq (h : Spells s n u unit) :
    ofChars? s = ofNumeral? (Decimal.value n) unit := by
  obtain ⟨hn, hu⟩ := h.parts
  simp only [ofChars?, hn, hu, Decimal.numeral?_eq_some_iff.2 ⟨h.numeral, rfl⟩,
    ofSuffix?_eq_some_iff.2 h.suffix, Option.bind_eq_bind, Option.bind_some]

/-- A text is a span of time exactly if it is a numeral and a unit, and it is the span of those. -/
theorem ofChars?_eq_some_iff :
    ofChars? s = some d ↔
      ∃ n u unit, Spells s n u unit ∧ ofNumeral? (Decimal.value n) unit = some d := by
  constructor
  · intro h
    simp only [ofChars?, Option.bind_eq_bind, Option.bind_eq_some_iff,
      Decimal.numeral?_eq_some_iff, ofSuffix?_eq_some_iff] at h
    obtain ⟨_, ⟨hn, rfl⟩, unit, hu, hd⟩ := h
    exact ⟨_, _, unit, spells_of_parts hn hu, hd⟩
  · rintro ⟨n, u, unit, hs, hd⟩
    rw [hs.ofChars?_eq, hd]

/-- However many blanks there are before, between and behind them, the text is the same numeral and
the same unit. -/
theorem spells_append {pre gap post : List Char} (hn : Decimal.IsNumeral n) (hu : Suffix u unit)
    (hpre : Text.Blank pre) (hgap : Text.Blank gap) (hpost : Text.Blank post) :
    Spells (pre ++ n ++ gap ++ u ++ post) n u unit := by
  have htight : Text.Tight n := Text.tight_of_forall fun c hc =>
    isBlank_eq_false_of_isNumeralChar (isNumeralChar_of_mem hn hc)
  refine ⟨hn, hu, ?_⟩
  rcases eq_or_ne u [] with rfl | hne
  · -- without a unit the blanks behind the number are at the end
    refine ⟨[], Text.Blank.nil, ?_⟩
    rw [List.append_nil, List.append_nil, List.append_nil, List.append_assoc]
    exact Text.trim_append hpre htight (hgap.append hpost)
  · refine ⟨gap, hgap, ?_⟩
    rw [List.append_assoc pre, List.append_assoc pre]
    exact Text.trim_append hpre (htight.append hn.ne_nil gap hu.tight hne) hpost

end Duration

namespace Settings

open Duration

variable {text : String} {d : Duration} {n u : List Char} {unit : TimeUnit}

lemma readDuration_eq_ok_iff : readDuration text = .ok d ↔ ofChars? text.toList = some d := by
  rw [readDuration, ofText?]
  cases ofChars? text.toList <;> simp

lemma eq_of_readDuration_eq_error {e : SettingsError} (h : readDuration text = .error e) :
    e = .invalidDuration text := by
  rw [readDuration] at h
  split at h <;> cases h
  rfl

/-- Below two to the 63rd seconds a numeral and a unit are read, to the nearest nanosecond but for
one part in two to the 51st. -/
lemma exists_readDuration (hs : Spells text.toList n u unit)
    (h : Decimal.value n * unit.seconds < 2 ^ 63) :
    ∃ d, readDuration text = .ok d ∧
      |(d.nanos : Rat) - Decimal.value n * unit.seconds * 10 ^ 9| ≤
        Decimal.value n * unit.seconds * 10 ^ 9 / 2 ^ 51 + 1 / 2 := by
  have hv : 0 ≤ Decimal.value n := Decimal.value_nonneg n
  obtain ⟨d, hd⟩ := exists_ofNumeral? hv h
  refine ⟨d, readDuration_eq_ok_iff.2 (hs.ofChars?_eq.trans hd), ?_⟩
  have hnanos := abs_nanos_sub_le hv hd
  norm_num [Decimal.hiddenBit] at hnanos ⊢
  linarith

/-- Reading accepts exactly the texts that `Spells` takes for a numeral with a unit, refuses every
other text by name, and goes by the number and the unit alone. Below two to the 63rd seconds every
one of them is accepted. -/
theorem readDuration_exact (text : String) :
    (∀ d, readDuration text = .ok d ↔
      ∃ n u unit, Spells text.toList n u unit ∧ ofNumeral? (Decimal.value n) unit = some d) ∧
    (∀ n u unit, Spells text.toList n u unit → Decimal.value n * unit.seconds < 2 ^ 63 →
      ∃ d, readDuration text = .ok d ∧
        |(d.nanos : Rat) - Decimal.value n * unit.seconds * 10 ^ 9| ≤
          Decimal.value n * unit.seconds * 10 ^ 9 / 2 ^ 51 + 1 / 2) ∧
    (∀ e, readDuration text = .error e → e = .invalidDuration text) ∧
    (∀ d n u unit pre gap post, readDuration text = .ok d → Spells text.toList n u unit →
      Text.Blank pre → Text.Blank gap → Text.Blank post →
      readDuration (String.ofList (pre ++ n ++ gap ++ u ++ post)) = .ok d) := by
  refine ⟨fun d => readDuration_eq_ok_iff.trans ofChars?_eq_some_iff,
    fun n u unit hs h => exists_readDuration hs h, fun e h => eq_of_readDuration_eq_error h, ?_⟩
  intro d n u unit pre gap post hd hs hpre hgap hpost
  have hspaced := spells_append hs.numeral hs.suffix hpre hgap hpost
  rw [readDuration_eq_ok_iff, String.toList_ofList, hspaced.ofChars?_eq, ← hs.ofChars?_eq]
  exact readDuration_eq_ok_iff.1 hd

end Settings

end Fleet
