import ScriptBridge.Proofs.Spelling

/-!
What reads as a number: the reader takes exactly the spellings of numerals, with blanks around them.
-/

namespace ScriptBridge

namespace Numeral

theorem readExponent_isSome (s : List Char) :
    (readExponent s).isSome = isDigits (splitSign s).2 := by
  unfold readExponent
  split
  rename_i split
  rw [split]
  cases isDigits _ <;> rfl

theorem readBinaryExponent_isSome (s : List Char) :
    (readBinaryExponent s).isSome = isDigits (splitSign s).2 := by
  unfold readBinaryExponent
  split
  rename_i split
  rw [split]
  cases isDigits _ <;> rfl

theorem Exponent.readBinaryExponent_text (e : Exponent) :
    readBinaryExponent (signText e.sign ++ e.digits) = some e.power := by
  rw [readBinaryExponent, e.splitSign_text]
  simp [e.isDigits, Exponent.power]

/-- Digits that are read one by one. -/
theorem mapM_hexValue? {s : List Char} (digits : ∀ c ∈ s, (hexValue? c).isSome = true) :
    s.mapM hexValue? = some (s.map fun c => (hexValue? c).getD 0) := by
  induction s with
  | nil => rfl
  | cons c rest ih =>
    obtain ⟨d, value⟩ := Option.isSome_iff_exists.mp (digits c (by simp))
    rw [List.mapM_cons, value, ih fun c member => digits c (by simp [member])]
    simp [value]

theorem isSome_of_mapM {s : List Char} {values : List Nat} (read : s.mapM hexValue? = some values) :
    ∀ c ∈ s, (hexValue? c).isSome = true := by
  induction s generalizing values with
  | nil => simp
  | cons c rest ih =>
    rw [List.mapM_cons] at read
    obtain ⟨d, value, more⟩ := Option.bind_eq_some_iff.mp read
    obtain ⟨ds, others, -⟩ := Option.bind_eq_some_iff.mp more
    intro e member
    rcases List.mem_cons.mp member with rfl | member
    · simp [value]
    · exact ih others e member

namespace Spelling

variable (n : Spelling)

theorem hexFloat_parts (high low : List Nat) (figures : n.figures = high ++ low) :
    n.hexFloat = if (hexSum (hexSum .zero high) low).isZero then .zero
      else (hexSum (hexSum .zero high) low).mul (Double.powerOfTwo n.binaryScale) := by
  rw [hexFloat, figures, hexSum, List.foldl_append]
  rfl

/-- A hexadecimal numeral is an integer if it has neither point nor exponent, otherwise a float. -/
theorem readHex_body {capital : Bool} (hex : n.base = .hexadecimal capital) :
    (n.part = none → n.exponent = none →
      readHex (n.mantissa ++ n.tail) = some (.integer (Int64.ofNat n.size))) ∧
    (¬ (n.part = none ∧ n.exponent = none) →
      readHex (n.mantissa ++ n.tail) = some (.float n.hexFloat)) := by
  have head := n.takeWhile_body
  have last := n.dropWhile_body
  simp only [hex, Base.isMark] at head last
  have digits : ∀ c ∈ n.whole ++ n.part.getD [], (hexValue? c).isSome = true := by
    simpa only [hex, Base.digit?] using n.digits
  have whole := mapM_hexValue? fun c member => digits c (List.mem_append_left _ member)
  have part := mapM_hexValue? fun c member => digits c (List.mem_append_right _ member)
  have nonempty : n.whole = [] → n.part.getD [] ≠ [] := by simpa using n.nonempty
  have splits := n.splitOnce_mantissa
  have float := n.hexFloat_parts (n.whole.map fun c => (hexValue? c).getD 0)
    ((n.part.getD []).map fun c => (hexValue? c).getD 0) (by simp [figures, hex, Base.digit?])
  rw [binaryScale] at float
  unfold readHex
  dsimp only
  rw [head, last, splits, float]
  cases point : n.part with
  | none =>
    have bare : n.mantissa = n.whole := by simp [mantissa, point]
    have nonempty : n.whole ≠ [] := by simpa [point] using nonempty
    cases exponent : n.exponent with
    | none =>
      refine ⟨fun _ _ => ?_, fun plain => absurd ⟨rfl, rfl⟩ plain⟩
      simp [bare, nonempty, whole, tail, exponent, size, hexInteger_eq, ofDigits_eq_foldl, hex,
        Base.size, Base.digit?]
    | some e =>
      refine ⟨fun _ absent => by simp at absent, fun _ => ?_⟩
      simp [bare, nonempty, whole, tail, exponent, Exponent.text, e.readBinaryExponent_text]
  | some digits =>
    rw [point, Option.getD_some] at part nonempty
    refine ⟨fun absent => by simp at absent, fun _ => ?_⟩
    cases exponent : n.exponent with
    | none => simpa [whole, part, tail, exponent] using nonempty
    | some e =>
      simpa [whole, part, tail, exponent, Exponent.text, e.readBinaryExponent_text] using nonempty

/-- A decimal numeral is a string of digits if it has neither point nor exponent. -/
theorem isDigits_body (decimal : n.base = .decimal) :
    isDigits (n.mantissa ++ n.tail) = true ↔ n.part = none ∧ n.exponent = none := by
  have digits : ∀ c ∈ n.whole ++ n.part.getD [], isDigit c = true := by
    simpa [decimal, Base.digit?] using n.digits
  rw [isDigits_iff]
  constructor
  · rintro ⟨-, all⟩
    constructor
    · cases point : n.part with
      | none => rfl
      | some part =>
        have wrong : isDigit '.' = true := all '.' (by simp [mantissa, point])
        exact absurd wrong (by decide)
    · cases exponent : n.exponent with
      | none => rfl
      | some e =>
        have digit := all e.mark (by simp [tail, exponent, Exponent.text])
        have unmarked : Base.decimal.isMark e.mark = false :=
          Base.isMark_of_digit (by simp [Base.digit?, digit])
        rw [← decimal, n.marked e exponent] at unmarked
        cases unmarked
  · rintro ⟨point, exponent⟩
    have nonempty := n.nonempty
    simp only [point, Option.getD_none, List.append_nil] at digits nonempty
    simpa [mantissa, tail, point, exponent] using ⟨nonempty, digits⟩

theorem decimalValue_whole (decimal : n.base = .decimal) : decimalValue n.whole = n.size := by
  have digits : n.whole.map (fun c => (n.base.digit? c).getD 0) = n.whole.map digitValue := by
    refine List.map_congr_left fun c member => ?_
    have digit := n.digits c (by simp [member])
    simp only [decimal, Base.digit?, Option.isSome_ite] at digit ⊢
    simp [digit]
  rw [size, digits, ofDigits_eq_foldl, decimal, List.foldl_map]
  rfl

/-- The only decimal numerals that are read as integers are those without point and exponent that
fit. -/
theorem readInteger_text (decimal : n.base = .decimal) (i : Int64) :
    readInteger n.text = some i ↔ n.IsInteger ∧ i = Int64.ofInt n.value := by
  have digits := n.isDigits_body decimal
  have split := n.splitSign_text
  rw [decimal, Base.start, List.nil_append] at split
  simp only [readInteger, split, IsInteger, decimal, ne_eq, not_true_eq_false, false_or]
  by_cases plain : n.part = none ∧ n.exponent = none
  · obtain ⟨point, exponent⟩ := plain
    have body : n.mantissa ++ n.tail = n.whole := by simp [mantissa, tail, point, exponent]
    rw [if_pos (digits.mpr ⟨point, exponent⟩), body, decimalValue_whole n decimal]
    have same : (if (n.sign == some true) = true then -(n.size : Int) else n.size) = n.value := by
      simp [value]
    rw [same]
    simp only [point, exponent, true_and]
    by_cases fits : Int64.minValue.toInt ≤ n.value ∧ n.value ≤ Int64.maxValue.toInt
    · rw [if_pos fits, Option.some.injEq]
      exact ⟨fun same => ⟨fits, same.symm⟩, fun both => both.2.symm⟩
    · rw [if_neg fits]
      exact iff_of_false (Option.some_ne_none i ∘ Eq.symm) (fun both => fits both.1)
  · rw [if_neg (fun all => plain (digits.mp all))]
    simp
    intro point exponent
    exact absurd ⟨point, exponent⟩ plain

/-- Every decimal numeral is read as a float if need be. -/
theorem readDecimal_text (decimal : n.base = .decimal) : (readDecimal n.text).isSome = true := by
  have head := n.takeWhile_body
  have last := n.dropWhile_body
  simp only [decimal, Base.isMark] at head last
  have split := n.splitSign_text
  rw [decimal, Base.start, List.nil_append] at split
  have splits := n.splitOnce_mantissa
  have digits : isDigits (n.whole ++ n.part.getD []) = true := by
    refine isDigits_iff.mpr ⟨n.nonempty, ?_⟩
    simpa [decimal, Base.digit?] using n.digits
  have scaled (e : Exponent) : ∃ scale, readExponent (signText e.sign ++ e.digits) = some scale := by
    rw [← Option.isSome_iff_exists, readExponent_isSome, e.splitSign_text, e.isDigits]
  unfold readDecimal
  rw [split]
  dsimp only
  rw [head, last, splits]
  cases exponent : n.exponent with
  | none => cases point : n.part <;> simpa [tail, exponent, mantissa, point] using digits
  | some e =>
    obtain ⟨scale, read⟩ := scaled e
    cases point : n.part <;>
      simpa [tail, exponent, Exponent.text, read, mantissa, point] using digits

/-- There are no letters in a decimal numeral but the one before an exponent. -/
theorem isExponentMark_of_isLetter (decimal : n.base = .decimal) {c : Char}
    (member : c ∈ n.mantissa ++ n.tail) (letter : isLetter c = true) :
    isExponentMark c = true := by
  have range : 0x61 ≤ c.toNat ∧ c.toNat ≤ 0x7a ∨ 0x41 ≤ c.toNat ∧ c.toNat ≤ 0x5a := by
    simpa [isLetter, le_iff_toNat] using letter
  rcases List.mem_append.mp member with member | member
  · rcases n.mem_mantissa member with rfl | digit
    · revert range; decide
    · have digit : isDigit c = true := by simpa [decimal, Base.digit?] using digit
      rw [isDigit_iff] at digit
      omega
  · unfold tail at member
    cases exponent : n.exponent with
    | none => simp [exponent] at member
    | some e =>
      simp only [exponent, Option.elim_some, Exponent.text, List.mem_cons, List.mem_append] at member
      rcases member with rfl | sign | digit
      · simpa [decimal, Base.isMark] using n.marked e exponent
      · have signs := mem_signText sign
        rcases signs with rfl | rfl <;> revert range <;> decide
      · have digit := isDigit_iff.mp ((isDigits_iff.mp e.isDigits).2 c digit)
        omega

/-- A decimal numeral does not begin as a hexadecimal one does. -/
theorem body_plain (decimal : n.base = .decimal) (capital : Bool) (hex : List Char) :
    n.mantissa ++ n.tail ≠ (Base.hexadecimal capital).start ++ hex := by
  intro same
  have member : (if capital then 'X' else 'x') ∈ n.mantissa ++ n.tail := by
    rw [same]
    simp [Base.start]
  have mark := n.isExponentMark_of_isLetter decimal member (by cases capital <;> rfl)
  cases capital <;> simp [isExponentMark] at mark

end Spelling

/-- A word has a letter that no exponent begins with. -/
theorem exists_letter {s : List Char} {d : Double} (word : wordValue? s = some d) :
    ∃ c ∈ s, isLetter c = true ∧ isExponentMark c = false := by
  have named : 'n' ∈ s.map Char.toLower := by
    unfold wordValue? at word
    dsimp only at word
    split at word
    · rename_i same
      rcases same with same | same <;> simp [same]
    · split at word
      · rename_i same
        simp [same]
      · cases word
  obtain ⟨c, member, lower⟩ := List.mem_map.mp named
  refine ⟨c, member, ?_⟩
  unfold Char.toLower at lower
  split at lower
  · have value : c.val + ('a'.val - 'A'.val) = 'n'.val := congrArg Char.val lower
    obtain rfl : c = 'N' := Char.val_inj.mp (UInt32.add_left_inj _ |>.mp 
      (value.trans (by decide : 'n'.val = 'N'.val + ('a'.val - 'A'.val))))
    decide
  · subst lower
    decide

/-- After `0x` only the hexadecimal reader is asked. -/
theorem parse_of_start {s hex : List Char} {negative : Bool} (capital : Bool)
    (split : splitSign (Text.trim s) = (negative, (Base.hexadecimal capital).start ++ hex)) :
    parse s = (readHex hex).map fun n => if negative then n.negate else n := by
  unfold parse
  dsimp only
  rw [split]
  cases capital <;> rfl

/-- Elsewhere the two decimal readers are asked, and words are turned away. -/
theorem parse_of_plain {s body : List Char} {negative : Bool}
    (split : splitSign (Text.trim s) = (negative, body)) (nonempty : body ≠ [])
    (plain : ∀ capital hex, body ≠ (Base.hexadecimal capital).start ++ hex) :
    parse s = (match readInteger (Text.trim s) with
      | some i => some (.integer i)
      | none =>
        if body.any fun c => isLetter c && !isExponentMark c then none
        else (readFloat (Text.trim s)).map .float) := by
  unfold parse
  dsimp only
  rw [split]
  dsimp only
  split
  · exact absurd rfl nonempty
  · exact absurd rfl (plain false _)
  · exact absurd rfl (plain true _)
  · rfl

/-- A text without words is a float where it is a decimal numeral. -/
theorem readFloat_of_unworded {s : List Char}
    (unworded : ((splitSign s).2.any fun c => isLetter c && !isExponentMark c) = false) :
    readFloat s = readDecimal s := by
  unfold readFloat
  dsimp only
  cases word : wordValue? (splitSign s).2 with
  | none => rfl
  | some d =>
    obtain ⟨c, member, letter, other⟩ := exists_letter word
    simpa [letter, other] using List.any_eq_false.mp unworded c member

namespace Spelling

variable (n : Spelling)

theorem body_ne_nil : n.mantissa ++ n.tail ≠ [] := by
  intro empty
  have bare := (List.append_eq_nil_iff.mp empty).1
  have nonempty := n.nonempty
  unfold mantissa at bare
  cases point : n.part with
  | none => simp_all
  | some part => simp [point] at bare

/-- A spelling is read as an integer or as a float, wherever blanks are around it. -/
theorem parse_text {before after : List Char}
    (blank : ∀ c ∈ before ++ after, Text.isBlank c = true) :
    (n.IsInteger → parse (before ++ n.text ++ after) = some (.integer (Int64.ofInt n.value))) ∧
    (¬ n.IsInteger → ∃ d, parse (before ++ n.text ++ after) = some (.float d)) := by
  have trimmed := n.trim_text blank
  have split := n.splitSign_text
  rw [← trimmed] at split
  cases base : n.base with
  | hexadecimal capital =>
    rw [base] at split
    rw [parse_of_start capital split]
    obtain ⟨integer, float⟩ := n.readHex_body base
    constructor
    · rintro ⟨point, exponent, -⟩
      rw [integer point exponent]
      cases sign : n.sign == some true
      · simp_all [value, Int64.ofInt_eq_ofNat]
      · simp_all [value, negate, Int64.ofInt_neg, Int64.ofInt_eq_ofNat]
    · intro other
      rw [float fun ⟨point, exponent⟩ => other ⟨point, exponent, .inl (by simp [base])⟩]
      cases n.sign == some true
      · exact ⟨n.hexFloat, rfl⟩
      · exact ⟨n.hexFloat.neg, rfl⟩
  | decimal =>
    rw [base, Base.start, List.nil_append] at split
    rw [parse_of_plain split n.body_ne_nil (n.body_plain base), trimmed]
    have integer := n.readInteger_text base
    constructor
    · intro whole
      rw [(integer _).mpr ⟨whole, rfl⟩]
    · intro other
      have unread : readInteger n.text = none := by
        cases read : readInteger n.text with
        | none => rfl
        | some i => exact absurd ((integer i).mp read).1 other
      have unworded :
          ((n.mantissa ++ n.tail).any fun c => isLetter c && !isExponentMark c) = false := by
        rw [List.any_eq_false]
        intro c member
        have mark := n.isExponentMark_of_isLetter base member
        simpa using mark
      obtain ⟨d, read⟩ := Option.isSome_iff_exists.mp (n.readDecimal_text base)
      rw [trimmed] at split
      rw [unread, unworded]
      refine ⟨d, ?_⟩
      simp only [Bool.false_eq_true, if_false]
      rw [readFloat_of_unworded (by rw [split]; exact unworded), read]
      rfl

end Spelling

/-- A body whose parts are in order is that of a spelling, with any sign. -/
theorem exists_spelling (base : Base) {body whole : List Char} {part : Option (List Char)}
    (sign : Option Bool)
    (mantissa : body.takeWhile (!base.isMark ·) = whole ++ part.elim [] ('.' :: ·))
    (digits : ∀ c ∈ whole ++ part.getD [], (base.digit? c).isSome = true)
    (nonempty : whole ++ part.getD [] ≠ [])
    (exponent : ∀ mark rest, body.dropWhile (!base.isMark ·) = mark :: rest →
      isDigits (splitSign rest).2 = true) :
    ∃ n : Spelling, n.text = signText sign ++ (base.start ++ body) := by
  have parts := List.takeWhile_append_dropWhile (p := (!base.isMark ·)) (l := body)
  rw [mantissa] at parts
  cases last : body.dropWhile (!base.isMark ·) with
  | nil =>
    refine ⟨⟨sign, base, whole, part, none, digits, nonempty, by simp⟩, ?_⟩
    rw [last] at parts
    rw [← parts]
    rfl
  | cons mark rest =>
    have stopped : base.isMark mark = true := by
      have head := List.head?_dropWhile_not (!base.isMark ·) body
      simpa [last] using head
    obtain ⟨e, same, spelled⟩ := exists_exponent mark (exponent mark rest last)
    refine ⟨⟨sign, base, whole, part, some e, digits, nonempty, ?_⟩, ?_⟩
    · rintro _ ⟨⟩
      rw [same]
      exact stopped
    · rw [last, ← spelled] at parts
      rw [← parts]
      rfl

theorem exists_of_readHex {hex : List Char} {m : Numeral} (read : readHex hex = some m)
    (sign : Option Bool) (capital : Bool) :
    ∃ n : Spelling, n.text = signText sign ++ ((Base.hexadecimal capital).start ++ hex) := by
  unfold readHex at read
  dsimp only at read
  have marked : ∀ mark rest, hex.dropWhile (!isBinaryMark ·) = mark :: rest →
      isDigits (splitSign rest).2 = true := by
    intro mark rest last
    rw [last] at read
    rw [← readBinaryExponent_isSome]
    cases scale : readBinaryExponent rest with
    | some e => rfl
    | none =>
      simp only [scale, Option.isNone_some, Bool.and_false, Option.elim_some] at read
      grind
  have spelled (whole : List Char) (part : Option (List Char)) (high low : List Nat)
      (mantissa : hex.takeWhile (!isBinaryMark ·) = whole ++ part.elim [] ('.' :: ·))
      (nonempty : ¬ (whole.isEmpty && (part.getD []).isEmpty) = true)
      (highRead : whole.mapM hexValue? = some high)
      (lowRead : (part.getD []).mapM hexValue? = some low) :
      ∃ n : Spelling, n.text = signText sign ++ ((Base.hexadecimal capital).start ++ hex) := by
    refine exists_spelling (.hexadecimal capital) sign mantissa ?_ (by simpa using nonempty) marked
    intro c member
    rcases List.mem_append.mp member with member | member
    · exact isSome_of_mapM highRead c member
    · exact isSome_of_mapM lowRead c member
  cases found : Text.splitOnce '.' (hex.takeWhile (!isBinaryMark ·)) with
  | none =>
    rw [found] at read
    dsimp only at read
    split at read
    · cases read
    · rename_i nonempty
      split at read
      · rename_i high low highRead lowRead
        exact spelled _ none high low (by simp) nonempty highRead lowRead
      · cases read
  | some both =>
    rw [found] at read
    dsimp only at read
    split at read
    · cases read
    · rename_i nonempty
      split at read
      · rename_i high low highRead lowRead
        exact spelled _ (some both.2) high low (Text.eq_of_splitOnce found) nonempty highRead lowRead
      · cases read

theorem exists_of_isDigits {body : List Char} (digits : isDigits body = true)
    (sign : Option Bool) : ∃ n : Spelling, n.text = signText sign ++ body := by
  obtain ⟨nonempty, digits⟩ := isDigits_iff.mp digits
  have unmarked : ∀ c ∈ body, (!isExponentMark c) = true := fun c member => by
    have digit : (Base.decimal.digit? c).isSome = true := by simp [Base.digit?, digits c member]
    simpa [Base.isMark] using Base.isMark_of_digit digit
  have pointless : body.takeWhile (!Base.decimal.isMark ·) =
      body ++ (none : Option (List Char)).elim [] ('.' :: ·) := by
    simpa [Base.isMark] using List.takeWhile_eq_self_iff.mpr unmarked
  refine exists_spelling .decimal sign pointless ?_ ?_ ?_
  · simpa [Base.digit?] using digits
  · simpa using nonempty
  · intro mark rest last
    simp only [Base.isMark] at last
    rw [List.dropWhile_eq_nil_iff.mpr unmarked] at last
    cases last

theorem exists_of_readDecimal {s : List Char} {d : Double} (read : readDecimal s = some d)
    (sign : Option Bool) : ∃ n : Spelling, n.text = signText sign ++ (splitSign s).2 := by
  unfold readDecimal at read
  dsimp only at read
  generalize splitSign s = signed at read ⊢
  obtain ⟨negative, body⟩ := signed
  dsimp only at read ⊢
  have marked : ∀ mark rest, body.dropWhile (!isExponentMark ·) = mark :: rest →
      isDigits (splitSign rest).2 = true := by
    intro mark rest last
    rw [last] at read
    rw [← readExponent_isSome]
    cases scale : readExponent rest with
    | none => simp [scale] at read
    | some e => rfl
  have spelled (whole : List Char) (part : Option (List Char))
      (mantissa : body.takeWhile (!isExponentMark ·) = whole ++ part.elim [] ('.' :: ·))
      (digits : isDigits (whole ++ part.getD []) = true) :
      ∃ n : Spelling, n.text = signText sign ++ body := by
    obtain ⟨nonempty, digits⟩ := isDigits_iff.mp digits
    refine exists_spelling .decimal sign mantissa ?_ nonempty marked
    simpa [Base.digit?] using digits
  cases found : Text.splitOnce '.' (body.takeWhile (!isExponentMark ·)) with
  | none =>
    rw [found] at read
    dsimp only at read
    split at read
    · split at read
      · rename_i digits
        exact spelled _ none (by simp) digits
      · cases read
    · cases read
  | some both =>
    rw [found] at read
    dsimp only at read
    split at read
    · split at read
      · rename_i digits
        exact spelled _ (some both.2) (Text.eq_of_splitOnce found) digits
      · cases read
    · cases read

/-- What reads as a number is a spelling between blanks. -/
theorem exists_of_parse {s : List Char} {m : Numeral} (read : parse s = some m) :
    ∃ n : Spelling, Text.trim s = n.text := by
  obtain ⟨sign, signed, -⟩ := exists_sign (Text.trim s)
  suffices spelled : ∃ n : Spelling, n.text = signText sign ++ (splitSign (Text.trim s)).2 by
    obtain ⟨n, text⟩ := spelled
    exact ⟨n, signed.trans text.symm⟩
  by_cases start : ∃ capital hex, (splitSign (Text.trim s)).2 = (Base.hexadecimal capital).start ++ hex
  · obtain ⟨capital, hex, body⟩ := start
    rw [parse_of_start capital (Prod.ext rfl body)] at read
    obtain ⟨value, hexRead, -⟩ := Option.map_eq_some_iff.mp read
    rw [body]
    exact exists_of_readHex hexRead sign capital
  · by_cases empty : (splitSign (Text.trim s)).2 = []
    · simp [parse, empty] at read
    · rw [parse_of_plain (Prod.eta _).symm empty fun capital hex same => start ⟨capital, hex, same⟩] at read
      cases integer : readInteger (Text.trim s) with
      | some i =>
        apply exists_of_isDigits
        unfold readInteger at integer
        dsimp only at integer
        split at integer
        · assumption
        · cases integer
      | none =>
        rw [integer] at read
        dsimp only at read
        cases words : (splitSign (Text.trim s)).2.any fun c => isLetter c && !isExponentMark c with
        | true => simp [words] at read
        | false =>
          rw [words, readFloat_of_unworded words] at read
          obtain ⟨d, float, -⟩ := Option.map_eq_some_iff.mp read
          exact exists_of_readDecimal float sign

/-- A string reads as a number exactly if it is a spelling of one between blanks; the number is an
integer, that of its digits with the sign, exactly if the spelling has neither point nor exponent
and is hexadecimal or fits in 64 bits, and otherwise it is a float. -/
theorem parse?_spelling (s : String) :
    ((parse? s).isSome = true ↔ ∃ (n : Spelling) (before after : List Char),
      s.toList = before ++ n.text ++ after ∧ ∀ c ∈ before ++ after, Text.isBlank c = true) ∧
    ∀ (n : Spelling) (before after : List Char), s.toList = before ++ n.text ++ after →
      (∀ c ∈ before ++ after, Text.isBlank c = true) →
        (∀ i, parse? s = some (.integer i) ↔ n.IsInteger ∧ i = Int64.ofInt n.value) ∧
        ((∃ d, parse? s = some (.float d)) ↔ ¬ n.IsInteger) := by
  have readings (n : Spelling) (before after : List Char) (text : s.toList = before ++ n.text ++ after)
      (blank : ∀ c ∈ before ++ after, Text.isBlank c = true) :
      (∀ i, parse? s = some (.integer i) ↔ n.IsInteger ∧ i = Int64.ofInt n.value) ∧
      ((∃ d, parse? s = some (.float d)) ↔ ¬ n.IsInteger) := by
    obtain ⟨integer, float⟩ := n.parse_text blank
    rw [← text] at integer float
    by_cases whole : n.IsInteger
    · have read : parse? s = _ := integer whole
      simp [read, whole, eq_comm]
    · obtain ⟨d, read⟩ := float whole
      have read : parse? s = _ := read
      simp [read, whole]
  refine ⟨⟨fun reads => ?_, ?_⟩, readings⟩
  · obtain ⟨m, read⟩ := Option.isSome_iff_exists.mp reads
    obtain ⟨n, trimmed⟩ := exists_of_parse read
    obtain ⟨before, after, text, blank⟩ := Text.exists_trim s.toList
    exact ⟨n, before, after, trimmed ▸ text, blank⟩
  · rintro ⟨n, before, after, text, blank⟩
    obtain ⟨integer, float⟩ := readings n before after text blank
    by_cases whole : n.IsInteger
    · simp [(integer _).mpr ⟨whole, rfl⟩]
    · obtain ⟨d, read⟩ := float.mpr whole
      simp [read]

theorem parse?_spelling_sixteen :
    ∃ n : Spelling, n.text = ['0', 'x', '1', '0'] ∧ parse? " 0x10\n" = some (.integer 16) := by
  let n : Spelling :=
    { sign := none, base := .hexadecimal false, whole := ['1', '0'], part := none, exponent := none
      digits := List.all_eq_true.mp (by decide)
      nonempty := by decide
      marked := by simp }
  have blank : ∀ c ∈ [' '] ++ ['\n'], Text.isBlank c = true := List.all_eq_true.mp (by decide)
  have integer := ((parse?_spelling " 0x10\n").2 n [' '] ['\n'] rfl blank).1
  exact ⟨n, rfl, (integer 16).mpr ⟨⟨rfl, rfl, .inl (by decide)⟩, rfl⟩⟩

end Numeral

end ScriptBridge
