import ScriptBridge.Host.Samples
import ScriptBridge.Proofs.Spelling

/-!
Signatures and their texts. Reading and writing undo each other, so a text stands for one name with
one list of parameters, and a class finds by it the nearest member that has both.
-/

namespace ScriptBridge

namespace Text

theorem splitOn_eq (separator : Char) (s : List Char) : splitOn separator s = s.splitOn separator := by
  induction s with
  | nil => rfl
  | cons c rest ih =>
    rw [splitOn, ih, List.splitOn_cons_eq_if_modifyHead]
    cases parts : rest.splitOn separator with
    | nil => exact absurd parts (List.splitOn_ne_nil _ _)
    | cons part parts => by_cases same : c = separator <;> simp [same]

theorem mem_of_mem_splitOn {separator : Char} {s part : List Char} {c : Char}
    (isPart : part ∈ splitOn separator s) (member : c ∈ part) : c ∈ s := by
  induction s generalizing part with
  | nil => simp_all [splitOn]
  | cons d rest ih =>
    rw [splitOn] at isPart
    cases parts : splitOn separator rest with
    | nil => simp_all
    | cons first others =>
      rw [parts] at isPart ih
      have inFirst (member : c ∈ first) : c ∈ d :: rest := .tail _ (ih List.mem_cons_self member)
      have inOthers (isPart : part ∈ others) : c ∈ d :: rest := .tail _ (ih (.tail _ isPart) member)
      by_cases same : d = separator
      · simp only [if_pos same, List.mem_cons] at isPart
        rcases isPart with rfl | rfl | isPart
        · cases member
        · exact inFirst member
        · exact inOthers isPart
      · simp only [if_neg same, List.mem_cons] at isPart
        rcases isPart with rfl | isPart
        · rcases List.mem_cons.mp member with rfl | member
          · exact List.mem_cons_self
          · exact inFirst member
        · exact inOthers isPart

/-- No separator stands before the first one. -/
theorem not_mem_of_splitOnce {separator : Char} {s before after : List Char}
    (found : splitOnce separator s = some (before, after)) : separator ∉ before := by
  induction s generalizing before with
  | nil => cases found
  | cons c rest ih =>
    rw [splitOnce] at found
    split at found
    · cases found
      exact List.not_mem_nil
    · rename_i other
      obtain ⟨⟨b, a⟩, split, same⟩ := Option.map_eq_some_iff.mp found
      cases same
      simpa [Ne.symm other] using ih split

theorem trim_of_solid {s : List Char} (solid : ∀ c ∈ s, isBlank c = false) : trim s = s := by
  simpa using @trim_of_blanks [] s [] (by simp) solid

end Text

namespace HostType

theorem isBlank_of_mem_name {t : HostType} {c : Char} (member : c ∈ t.name.toList) :
    Text.isBlank c = false := by
  obtain ⟨low, high⟩ := mem_name member
  rw [Numeral.le_iff_toNat] at low high
  exact Numeral.isBlank_of_visible (Nat.le_trans (by decide) low) (Nat.le_trans high (by decide))

/-- A mark that is no letter stands in no name of a type. -/
theorem not_mem_name {c : Char} (mark : ¬ 'a' ≤ c) (t : HostType) : c ∉ t.name.toList :=
  fun member => mark (mem_name member).1

/-- Texts without blanks that are read as types are the names of these. -/
theorem mapM_ofChars?_eq_some_iff {parts : List (List Char)} {types : List HostType}
    (solid : ∀ part ∈ parts, ∀ c ∈ part, Text.isBlank c = false) :
    parts.mapM ofChars? = some types ↔ parts = types.map (·.name.toList) := by
  induction parts generalizing types with
  | nil => cases types <;> simp
  | cons part rest ih =>
    have first (t : HostType) : ofChars? part = some t ↔ part = t.name.toList := by
      rw [ofChars?_eq_some_iff, Text.trim_of_solid (solid part (by simp))]
    have others {types : List HostType} := @ih types fun p member => solid p (by simp [member])
    cases types with
    | nil => simp [Option.bind_eq_some_iff]
    | cons t types => simp [Option.bind_eq_some_iff, first, others, and_comm]

end HostType

namespace Signature

/-- What follows the opening bracket in the text of a signature, but for the closing one. -/
def paramText (params : List HostType) : List Char := [','].intercalate (params.map (·.name.toList))

theorem toList_text (s : Signature) :
    s.text.toList = s.name.toList ++ '(' :: (paramText s.params ++ [')']) := by
  simp [text, paramText, List.map_map, Function.comp_def]

theorem mem_paramText {params : List HostType} {c : Char} (member : c ∈ paramText params) :
    c = ',' ∨ ∃ t : HostType, c ∈ t.name.toList := by
  unfold paramText at member
  induction params with
  | nil => simp at member
  | cons t rest ih =>
    cases rest with
    | nil => exact .inr ⟨t, by simpa using member⟩
    | cons t' rest =>
      rw [List.map_cons, List.map_cons, List.intercalate_cons_cons] at member
      simp only [List.mem_append, List.mem_singleton] at member
      rcases member with (first | comma) | other
      · exact .inr ⟨t, first⟩
      · exact .inl comma
      · exact ih (by simpa using other)

theorem not_mem_paramText {params : List HostType} : '(' ∉ paramText params := by
  intro member
  rcases mem_paramText member with comma | ⟨t, member⟩
  · cases comma
  · exact HostType.not_mem_name (by decide) t member

theorem isBlank_of_mem_paramText {params : List HostType} {c : Char}
    (member : c ∈ paramText params) : Text.isBlank c = false := by
  rcases mem_paramText member with rfl | ⟨t, member⟩
  · decide
  · exact HostType.isBlank_of_mem_name member

theorem paramText_eq_nil_iff {params : List HostType} : paramText params = [] ↔ params = [] := by
  cases params with
  | nil => simp [paramText]
  | cons t rest =>
    cases rest with
    | nil => simp [paramText, t.name_ne_nil]
    | cons => simp [paramText, List.intercalate_cons_cons]

theorem splitOn_paramText {params : List HostType} (nonempty : params ≠ []) :
    Text.splitOn ',' (paramText params) = params.map (·.name.toList) := by
  rw [Text.splitOn_eq]
  refine List.splitOn_intercalate ',' ?_ (by simpa using nonempty)
  intro part member comma
  obtain ⟨t, _, rfl⟩ := List.mem_map.mp member
  exact HostType.not_mem_name (by decide) t comma

theorem types?_eq_some_iff {text : List Char} {types : List HostType}
    (solid : ∀ c ∈ text, Text.isBlank c = false) :
    types? text = some types ↔ text = paramText types := by
  unfold types?
  by_cases empty : text = []
  · subst empty
    rw [eq_comm, @eq_comm _ [], paramText_eq_nil_iff]
    simp
  have parts : ∀ part ∈ Text.splitOn ',' text, ∀ c ∈ part, Text.isBlank c = false :=
    fun part isPart c member => solid c (Text.mem_of_mem_splitOn isPart member)
  have split : (Text.splitOn ',' text).mapM HostType.ofChars? = some types ↔
      Text.splitOn ',' text = types.map (·.name.toList) := HostType.mapM_ofChars?_eq_some_iff parts
  rw [if_neg (by simpa using empty), split]
  constructor
  · intro same
    have joined := congrArg (List.intercalate [',']) same
    rwa [Text.splitOn_eq, List.intercalate_splitOn] at joined
  · rintro rfl
    exact splitOn_paramText (mt paramText_eq_nil_iff.mpr empty)

theorem isBlank_of_mem_normalize (s : String) :
    ∀ c ∈ (normalize s).toList, Text.isBlank c = false := by
  intro c member
  simp [normalize] at member
  exact member.2

/-- A text is read as a signature exactly when it is that signature's, in some spacing. -/
theorem parse?_eq_some_iff {s : String} {signature : Signature} :
    parse? s = some signature ↔
      signature.text = normalize s ∧ '(' ∉ signature.name.toList := by
  have solid := isBlank_of_mem_normalize s
  rw [parse?, ← String.toList_inj, toList_text]
  constructor
  · intro read
    simp only [Option.bind_eq_bind, Option.bind_eq_some_iff] at read
    obtain ⟨⟨name, rest⟩, split, params, closed, types, listed, same⟩ := read
    cases same
    have whole := Text.eq_of_splitOnce split
    obtain rfl : rest = params ++ [')'] := dropClose_eq_some_iff.mp closed
    obtain rfl : params = paramText types :=
      (types?_eq_some_iff fun c member => solid c (by simp [whole, member])).mp listed
    exact ⟨by simp [whole], by simpa using Text.not_mem_of_splitOnce split⟩
  · rintro ⟨same, plain⟩
    rw [← same, Text.splitOnce_append plain]
    have closed : dropClose (paramText signature.params ++ [')']) = some (paramText signature.params) :=
      dropClose_eq_some_iff.mpr rfl
    have listed : types? (paramText signature.params) = some signature.params :=
      (types?_eq_some_iff fun c => isBlank_of_mem_paramText).mpr rfl
    simp [closed, listed]

/-- Whether the name has no blanks and no opening bracket. -/
def IsPlain (s : Signature) : Prop := ∀ c ∈ s.name.toList, Text.isBlank c = false ∧ c ≠ '('

instance (s : Signature) : Decidable s.IsPlain := List.decidableBAll _ _

theorem IsPlain.not_mem {s : Signature} (plain : s.IsPlain) : '(' ∉ s.name.toList :=
  fun member => (plain _ member).2 rfl

theorem normalize_of_solid {s : String} (solid : ∀ c ∈ s.toList, Text.isBlank c = false) :
    normalize s = s := by
  rw [normalize, List.filter_eq_self.mpr (by simpa using solid), String.ofList_toList]

theorem IsPlain.normalize_text {s : Signature} (plain : s.IsPlain) : normalize s.text = s.text := by
  refine normalize_of_solid fun c member => ?_
  rw [toList_text] at member
  simp only [List.mem_append, List.mem_cons, List.not_mem_nil, or_false] at member
  rcases member with name | rfl | params | rfl
  · exact (plain c name).1
  · decide
  · exact isBlank_of_mem_paramText params
  · decide

theorem IsPlain.parse?_text {s : Signature} (plain : s.IsPlain) : parse? s.text = some s :=
  parse?_eq_some_iff.mpr ⟨plain.normalize_text.symm, plain.not_mem⟩

/-- The text of a plain signature belongs to no other one, plain or not: a bracket in the other
name would be a second one in the text. -/
theorem IsPlain.text_eq_iff {a b : Signature} (plain : a.IsPlain) : b.text = a.text ↔ b = a := by
  refine ⟨fun same => ?_, fun same => same ▸ rfl⟩
  have once : (b.text.toList).count '(' = (a.text.toList).count '(' := by rw [same]
  simp only [toList_text, List.count_append, List.count_cons_self,
    List.count_eq_zero_of_not_mem plain.not_mem] at once
  have other : '(' ∉ b.name.toList := by
    rw [← List.count_eq_zero]
    have := List.count_eq_zero_of_not_mem (@not_mem_paramText a.params)
    have := List.count_eq_zero_of_not_mem (@not_mem_paramText b.params)
    omega
  have read : parse? a.text = some b := parse?_eq_some_iff.mpr ⟨same.trans plain.normalize_text.symm, other⟩
  exact Option.some.inj (read.symm.trans plain.parse?_text)

theorem paramText_inj {a b : List HostType} (same : paramText a = paramText b) : a = b := by
  have read (params : List HostType) : types? (paramText params) = some params :=
    (types?_eq_some_iff fun _ => isBlank_of_mem_paramText).mpr rfl
  exact Option.some.inj ((read a).symm.trans (same ▸ read b))

/-- A text stands for one name with one list of parameters, also if the name is not plain: the
parameters follow the last opening bracket. -/
theorem text_inj {a b : Signature} (same : a.text = b.text) : a = b := by
  have split (s : Signature) : Text.splitOnce '(' s.text.toList.reverse =
      some (')' :: (paramText s.params).reverse, s.name.toList.reverse) := by
    have plain : '(' ∉ ')' :: (paramText s.params).reverse := by simpa using not_mem_paramText
    rw [← Text.splitOnce_append plain]
    simp [toList_text]
  have parts := split a
  rw [same, split b] at parts
  simp only [Option.some.injEq, Prod.mk.injEq, List.cons.injEq, true_and, List.reverse_inj,
    String.toList_inj] at parts
  obtain ⟨params, name⟩ := parts
  cases a
  cases b
  simp only [mk.injEq]
  exact ⟨name.symm, (paramText_inj params).symm⟩

end Signature

/-- Whether two members are of one kind and have the same name and parameters. -/
def Member.Agrees (a b : Member) : Prop := a.signature = b.signature ∧ a.kind = b.kind

/-- A member is looked up by its signature in any spacing: the first one that agrees with it is
found. -/
theorem Class.member?_of_signature {c : Class} {m : Member} (member : m ∈ c.members)
    (plain : m.signature.IsPlain) {s : String} (spaced : Signature.normalize s = m.text) :
    ∃ before d after, c.members = before ++ d :: after ∧ d.Agrees m ∧
      (∀ e ∈ before, ¬ e.Agrees m) ∧ c.member? s (some m.kind) = some d := by
  have bracket : m.text.toList.contains '(' = true := by
    simp [Member.text, Signature.toList_text]
  have unfolded : c.member? s (some m.kind) =
      c.members.find? fun e => decide (e.kind = m.kind) && e.text == m.text := by
    simp only [member?, spaced, bracket, Option.all_some, if_true]
  have agrees (e : Member) :
      (decide (e.kind = m.kind) && e.text == m.text) = true ↔ e.Agrees m := by
    simp [Member.Agrees, Member.text, plain.text_eq_iff, and_comm]
  have found : (c.member? s (some m.kind)).isSome = true := by
    rw [unfolded, List.find?_isSome]
    exact ⟨m, member, (agrees m).mpr ⟨rfl, rfl⟩⟩
  obtain ⟨d, same⟩ := Option.isSome_iff_exists.mp found
  rw [unfolded, List.find?_eq_some_iff_append] at same
  obtain ⟨agree, before, after, split, others⟩ := same
  refine ⟨before, d, after, split, (agrees d).mp agree, fun e isBefore => ?_, ?_⟩
  · exact fun agree => by simpa [(agrees e).mpr agree] using others e isBefore
  · rw [unfolded, List.find?_eq_some_iff_append]
    exact ⟨agree, before, after, split, others⟩

/-- The texts of signatures are faithful: a plain one is read back as it was, what is read has the
text it was read from, two plain members share a text only with the name and the parameters, and a
class finds the nearest member that agrees with one of its own by the signature in any spacing. -/
theorem Signature.faithful :
    (∀ m : Member, m.signature.IsPlain → parse? m.text = some ⟨m.name, m.params⟩) ∧
    (∀ (s : String) (read : Signature), parse? s = some read → read.text = normalize s) ∧
    (∀ a b : Member, a.signature.IsPlain → b.signature.IsPlain →
      (a.text = b.text ↔ a.name = b.name ∧ a.params = b.params)) ∧
    ∀ (c : Class) (m : Member), m ∈ c.members → m.signature.IsPlain →
      ∀ s : String, normalize s = m.text →
        ∃ before d after, c.members = before ++ d :: after ∧
          (d.name = m.name ∧ d.params = m.params ∧ d.kind = m.kind) ∧
          (∀ e ∈ before, ¬ (e.name = m.name ∧ e.params = m.params ∧ e.kind = m.kind)) ∧
          c.member? s (some m.kind) = some d := by
  have agrees (a b : Member) :
      a.Agrees b ↔ a.name = b.name ∧ a.params = b.params ∧ a.kind = b.kind := by
    simp [Member.Agrees, Member.signature, and_assoc]
  refine ⟨fun m plain => plain.parse?_text, fun s read same => (parse?_eq_some_iff.mp same).1, ?_, ?_⟩
  · intro a b _ plain
    simpa [Member.text, Member.signature] using plain.text_eq_iff (b := a.signature)
  · intro c m member plain s spaced
    simpa only [agrees] using Class.member?_of_signature member plain spaced

/-- A method that a derived class declares again stands for the inherited one, in any spacing. -/
theorem Signature.faithful_leaf :
    parse? "pick(string)" = some ⟨"pick", [.string]⟩ ∧
      (⟨"pick", [.string]⟩ : Signature).text = normalize " pick (\tstring ) " ∧
      ∃ before d after, Samples.leaf.members = before ++ d :: after ∧
        (d.name = "pick" ∧ d.params = [.string] ∧ d.kind = .method) ∧
        (∀ e ∈ before, ¬ (e.name = "pick" ∧ e.params = [.string] ∧ e.kind = .method)) ∧
        Samples.leaf.member? " pick (\tstring ) " (some .method) = some d := by
  let inherited : Member :=
    { name := "pick", kind := .method, params := [.string], result := .string,
      body := some (.const (.text "string")) }
  have member : inherited ∈ Samples.leaf.members :=
    List.mem_of_getElem? (show Samples.leaf.members[17]? = some _ from rfl)
  have plain : inherited.signature.IsPlain := by decide
  obtain ⟨read, written, _, found⟩ := faithful
  exact ⟨read inherited plain, written _ _ (by decide),
    found Samples.leaf inherited member plain " pick (\tstring ) " (by decide)⟩

end ScriptBridge
