import Mathlib.Data.List.DropRight
import SegmentWire.Proofs.JsonTokens

/-!
# Values in JSON text

What is written is read back as it was, in either layout, as long as no more containers
are open at the same time than the reader allows. A text that opens one more is refused.
Both are shown for one kind of value after the other: a container is read as far as its
items are.
-/
namespace SegmentWire.Json

/-! ### Containers that are open at the same time -/

mutual

/-- Containers that are open at the same time in the text of a value. -/
def nesting : Json → Nat
  | null => 0
  | bool _ => 0
  | unsigned _ => 0
  | number _ => 0
  | string _ => 0
  | array items => nestingOfItems items + 1
  | object fields => nestingOfFields fields + 1

def nestingOfItems : List Json → Nat
  | [] => 0
  | item :: items => max item.nesting (nestingOfItems items)

def nestingOfFields : List (String × Json) → Nat
  | [] => 0
  | (_, value) :: fields => max value.nesting (nestingOfFields fields)

end

lemma nestingOfItems_le_iff {items : List Json} {n : Nat} :
    nestingOfItems items ≤ n ↔ ∀ item ∈ items, item.nesting ≤ n := by
  induction items with
  | nil => simp [nestingOfItems]
  | cons item items ih => simp [nestingOfItems, ih]

lemma nestingOfFields_le_iff {fields : List (String × Json)} {n : Nat} :
    nestingOfFields fields ≤ n ↔ ∀ field ∈ fields, field.2.nesting ≤ n := by
  induction fields with
  | nil => simp [nestingOfFields]
  | cons field fields ih => simp [nestingOfFields, ih]

/-! ### Blanks -/

lemma skipBlanks_cons {c : Char} (h : isBlank c = false) (cs : List Char) :
    skipBlanks (c :: cs) = c :: cs := by
  simp [skipBlanks, h]

lemma skipBlanks_lineBreak (layout : Layout) (level : Nat) (cs : List Char) :
    skipBlanks (layout.lineBreak level ++ cs) = skipBlanks cs := by
  refine List.dropWhile_append_of_pos ?_
  cases layout with
  | compact => simp [Layout.lineBreak]
  | indented => simp [Layout.lineBreak, isBlank]

/-! ### Items of a container -/

section Items

variable {α : Type} (layout : Layout) (level : Nat) (closing : Char)
  (text : α → List Char → List Char)

/-- The items after the first one of a container, and its end. -/
def laterItems : List α → List Char → List Char
  | [], rest => layout.lineBreak level ++ closing :: rest
  | a :: items, rest => ',' :: (layout.lineBreak (level + 1) ++ text a (laterItems items rest))

/-- The items of a container whose opening bracket has been written, and its end. -/
def allItems : List α → List Char → List Char
  | [], rest => closing :: rest
  | a :: items, rest =>
    layout.lineBreak (level + 1) ++ text a (laterItems layout level closing text items rest)

end Items

lemma writeItems_eq (layout : Layout) (level : Nat) (items : List Json) (rest : List Char) :
    writeItems layout level items rest =
      laterItems layout level ']' (write layout (level + 1)) items rest := by
  induction items with
  | nil => rfl
  | cons item items ih => rw [writeItems, laterItems, ih]

lemma write_array (layout : Layout) (level : Nat) (items : List Json) (rest : List Char) :
    write layout level (array items) rest =
      '[' :: allItems layout level ']' (write layout (level + 1)) items rest := by
  cases items with
  | nil => rfl
  | cons item items => rw [write, allItems, writeItems_eq]

/-- The text of a field. -/
def writeField (layout : Layout) (level : Nat) (field : String × Json) (rest : List Char) :
    List Char :=
  Quoted.write field.1 ++ (layout.colon ++ write layout level field.2 rest)

lemma writeFields_eq (layout : Layout) (level : Nat) (fields : List (String × Json))
    (rest : List Char) :
    writeFields layout level fields rest =
      laterItems layout level '\x7d' (writeField layout (level + 1)) fields rest := by
  induction fields with
  | nil => rfl
  | cons field fields ih => rw [writeFields, laterItems, ih, writeField]

lemma write_object (layout : Layout) (level : Nat) (fields : List (String × Json))
    (rest : List Char) :
    write layout level (object fields) rest =
      '\x7b' :: allItems layout level '\x7d' (writeField layout (level + 1)) fields rest := by
  cases fields with
  | nil => rfl
  | cons field fields => rw [write, allItems, writeFields_eq, writeField]

/-! ### Reading items -/

/-- The reader finds an item where its text stands after blanks, if the item is admitted, and fails
there otherwise. -/
structure ReadsItem {α : Type} (readItem : List Char → Option (α × List Char)) (closing : Char)
    (text : α → List Char → List Char) (admitted : α → Prop) [DecidablePred admitted] (a : α) :
    Prop where
  starts : ∀ rest, ∃ c more, text a rest = c :: more ∧ isBlank c = false ∧ c ≠ closing
  length_le : ∀ rest, rest.length ≤ (text a rest).length
  read : ∀ cs rest, EndsNumber rest → skipBlanks cs = text a rest →
    readItem cs = if admitted a then some (a, rest) else none

/-- The brackets that end a container. -/
def IsClosing (c : Char) : Prop :=
  c = ']' ∨ c = '\x7d'

lemma IsClosing.isBlank {c : Char} (h : IsClosing c) : isBlank c = false := by
  obtain rfl | rfl := h <;> rfl

section ReadItems

variable {α : Type} {readItem : List Char → Option (α × List Char)} {closing : Char}
  {text : α → List Char → List Char} {admitted : α → Prop} [DecidablePred admitted]
  {layout : Layout} {level : Nat} {first : α} {items : List α}

lemma endsNumber_laterItems (hclosing : IsClosing closing) (rest : List Char) :
    EndsNumber (laterItems layout level closing text items rest) := by
  cases items with
  | cons a items => exact endsNumber_cons (by decide) _
  | nil =>
    cases layout with
    | compact =>
      obtain rfl | rfl := hclosing
      · exact endsNumber_cons (by decide) _
      · exact endsNumber_cons (by decide) _
    | indented => exact endsNumber_cons (by decide) _

lemma length_lt_laterItems (layout : Layout) (level : Nat)
    (h : ∀ a ∈ items, ReadsItem readItem closing text admitted a) (rest : List Char) :
    items.length + rest.length < (laterItems layout level closing text items rest).length := by
  induction items with
  | nil =>
    simp only [laterItems, List.length_nil, List.length_cons, List.length_append]
    omega
  | cons a items ih =>
    obtain ⟨ha, hitems⟩ := List.forall_mem_cons.mp h
    have hlater := ih hitems
    have hlength := ha.length_le (laterItems layout level closing text items rest)
    simp only [laterItems, List.length_cons, List.length_append]
    omega

lemma length_le_allItems (layout : Layout) (level : Nat)
    (h : ∀ a ∈ items, ReadsItem readItem closing text admitted a) (rest : List Char) :
    items.length + rest.length ≤ (allItems layout level closing text items rest).length := by
  cases items with
  | nil => simp [allItems]
  | cons first items =>
    obtain ⟨hfirst, hlater⟩ := List.forall_mem_cons.mp h
    have hlt := length_lt_laterItems layout level hlater rest
    have hlength := hfirst.length_le (laterItems layout level closing text items rest)
    rw [allItems, List.length_cons, List.length_append]
    omega

lemma ReadsItem.skipBlanks_text (h : ReadsItem readItem closing text admitted first)
    (rest : List Char) : skipBlanks (text first rest) = text first rest := by
  obtain ⟨c, more, htext, hblank, -⟩ := h.starts rest
  rw [htext, skipBlanks_cons hblank]

lemma skipBlanks_item (h : ReadsItem readItem closing text admitted first) (level : Nat)
    (rest : List Char) :
    skipBlanks (layout.lineBreak level ++ text first rest) = text first rest := by
  rw [skipBlanks_lineBreak, h.skipBlanks_text]

/-- Items are read up to the first that is not admitted. -/
theorem readItems_laterItems (hclosing : IsClosing closing) {bound : Nat} {before : List α}
    {cs rest : List Char} (h : ∀ a ∈ first :: items, ReadsItem readItem closing text admitted a)
    (hbound : items.length < bound)
    (hcs : skipBlanks cs = text first (laterItems layout level closing text items rest)) :
    readItems readItem closing bound before cs =
      if ∀ a ∈ first :: items, admitted a then some (before.reverse ++ first :: items, rest)
      else none := by
  induction items generalizing first bound before cs with
  | nil =>
    obtain ⟨bound, rfl⟩ := Nat.exists_eq_add_of_lt hbound
    have hread := (h first List.mem_cons_self).read cs _ (endsNumber_laterItems hclosing rest) hcs
    have hend : skipBlanks (laterItems layout level closing text [] rest) = closing :: rest := by
      rw [laterItems, skipBlanks_lineBreak, skipBlanks_cons hclosing.isBlank]
    have hcomma : closing ≠ ',' := by
      obtain rfl | rfl := hclosing <;> decide
    rw [readItems, hread]
    by_cases hfirst : admitted first
    · simp [hfirst, hend, hcomma]
    · simp [hfirst]
  | cons next items ih =>
    obtain ⟨bound, rfl⟩ := Nat.exists_eq_add_of_lt hbound
    obtain ⟨hfirst, hlater⟩ := List.forall_mem_cons.mp h
    have hread := hfirst.read cs _ (endsNumber_laterItems hclosing rest) hcs
    have hcomma : skipBlanks (laterItems layout level closing text (next :: items) rest) =
        laterItems layout level closing text (next :: items) rest :=
      skipBlanks_cons (by decide) _
    rw [readItems, hread]
    by_cases hadmitted : admitted first
    · simp only [if_pos hadmitted, hcomma]
      rw [laterItems]
      simp only [if_true]
      rw [ih hlater (by simp at hbound ⊢; omega)
        (skipBlanks_item (hlater next List.mem_cons_self) _ _)]
      simp [hadmitted]
    · simp [hadmitted]

/-- A container is read if all its items are admitted. -/
theorem readContainer_allItems (hclosing : IsClosing closing) (rest : List Char)
    (h : ∀ a ∈ items, ReadsItem readItem closing text admitted a) :
    readContainer readItem closing (allItems layout level closing text items rest) =
      if ∀ a ∈ items, admitted a then some (items, rest) else none := by
  cases items with
  | nil => simp [readContainer, allItems, skipBlanks_cons hclosing.isBlank]
  | cons first items =>
    obtain ⟨hfirst, hlater⟩ := List.forall_mem_cons.mp h
    obtain ⟨c, more, htext, hblank, hc⟩ :=
      hfirst.starts (laterItems layout level closing text items rest)
    have hcs : skipBlanks (allItems layout level closing text (first :: items) rest) =
        c :: more := by
      rw [allItems, skipBlanks_item hfirst, htext]
    have hbound := length_le_allItems layout level h rest
    rw [List.length_cons] at hbound
    rw [readContainer, hcs]
    simp only [if_neg hc]
    rw [readItems_laterItems hclosing h (by omega) ((skipBlanks_cons hblank more).trans htext.symm)]
    simp

end ReadItems

/-! ### Reading values -/

lemma readValue_quote {cs more : List Char} (h : skipBlanks cs = '"' :: more) (n : Nat) :
    readValue n cs = (Quoted.read more).map fun (text, rest) => (string text, rest) := by
  rw [readValue.eq_def, h]
  rfl

lemma readValue_digit {cs more : List Char} {c : Char} (hc : c.isDigit = true)
    (h : skipBlanks cs = c :: more) (n : Nat) : readValue n cs = readNumber (c :: more) := by
  rw [readValue.eq_def, h]
  split
  all_goals first
    | rfl
    | (rename_i heq; cases heq; cases hc)

lemma readValue_bracket {cs more : List Char} (h : skipBlanks cs = '[' :: more) (n : Nat) :
    readValue n cs =
      if n = 0 then none
      else (readContainer (readValue (n - 1)) ']' more).map fun (items, rest) =>
        (array items, rest) := by
  rw [readValue.eq_def, h]
  cases n <;> rfl

lemma readValue_brace {cs more : List Char} (h : skipBlanks cs = '\x7b' :: more) (n : Nat) :
    readValue n cs =
      if n = 0 then none
      else (readContainer (readField (readValue (n - 1))) '\x7d' more).map fun (fields, rest) =>
        (object fields, rest) := by
  rw [readValue.eq_def, h]
  cases n <;> rfl

/-- Opening a container takes one from what may still be opened. -/
lemma ite_map_some {α β : Type} (n inner : Nat) (a : α) (f : α → β) :
    (if n = 0 then none else (if inner ≤ n - 1 then some a else none).map f) =
      if inner + 1 ≤ n then some (f a) else none := by
  cases n with
  | zero => rfl
  | succ n =>
    rw [if_neg n.succ_ne_zero, Nat.add_sub_cancel, apply_ite (Option.map f)]
    simp

lemma isBlank_of_isDigit {c : Char} (h : c.isDigit = true) : isBlank c = false := by
  rw [Bool.eq_false_iff]
  intro hblank
  simp only [isBlank, Bool.or_eq_true, beq_iff_eq] at hblank
  obtain ((rfl | rfl) | rfl) | rfl := hblank <;> cases h

/-- A value is read back from its text wherever that stands. -/
def ReadsBack (layout : Layout) (value : Json) : Prop :=
  ∀ level n, ReadsItem (readValue n) ']' (write layout level) (fun v => v.nesting ≤ n) value

variable {layout : Layout}

theorem readsBack_string (text : String) : ReadsBack layout (string text) := by
  intro level n
  have hread (rest : List Char) := Quoted.read_write text rest
  refine ⟨fun rest => ?_, fun rest => ?_, fun cs rest _ hcs => ?_⟩
  · obtain ⟨more, hmore, -⟩ := hread rest
    exact ⟨'"', more, hmore, by decide, by decide⟩
  · simp [write]
  · obtain ⟨more, hmore, hpieces⟩ := hread rest
    rw [readValue_quote (hcs.trans hmore), hpieces]
    simp [nesting]

theorem readsBack_unsigned (value : UInt64) : ReadsBack layout (unsigned value) := by
  intro level n
  obtain ⟨c, digits, hdigits⟩ :=
    List.exists_cons_of_ne_nil (Nat.toDigits_ne_nil (n := value.toNat) (b := 10))
  have hc : c.isDigit = true := Numeral.isDigit_of_mem_toDigits c (by rw [hdigits]; simp)
  refine ⟨fun rest => ⟨c, digits ++ rest, by rw [write, hdigits]; rfl,
      isBlank_of_isDigit hc, ?_⟩, fun rest => ?_, fun cs rest hrest hcs => ?_⟩
  · rintro rfl
    cases hc
  · simp [write]
  · rw [write, hdigits, List.cons_append] at hcs
    rw [readValue_digit hc hcs, ← List.cons_append, ← hdigits, readNumber_toDigits value hrest]
    simp [nesting]

theorem readsBack_array {items : List Json} (h : ∀ item ∈ items, ReadsBack layout item) :
    ReadsBack layout (array items) := by
  intro level n
  have hitems (m : Nat) : ∀ item ∈ items, ReadsItem (readValue m) ']' (write layout (level + 1))
      (fun v => v.nesting ≤ m) item := fun item hitem => h item hitem (level + 1) m
  refine ⟨fun rest => ⟨'[', _, write_array .., by decide, by decide⟩, fun rest => ?_,
    fun cs rest _ hcs => ?_⟩
  · have hlength := length_le_allItems layout level (hitems 0) rest
    rw [write_array, List.length_cons]
    omega
  · rw [write_array] at hcs
    rw [readValue_bracket hcs, readContainer_allItems (.inl rfl) rest (hitems (n - 1)),
      if_congr nestingOfItems_le_iff.symm rfl rfl, ite_map_some]
    rfl

lemma readsItem_field {field : String × Json} (h : ReadsBack layout field.2) (level n : Nat) :
    ReadsItem (readField (readValue n)) '\x7d' (writeField layout level)
      (fun f => f.2.nesting ≤ n) field := by
  obtain ⟨name, value⟩ := field
  refine ⟨fun rest => ?_, fun rest => ?_, fun cs rest hrest hcs => ?_⟩
  · obtain ⟨more, hmore, -⟩ :=
      Quoted.read_write name (layout.colon ++ write layout level value rest)
    exact ⟨'"', more, hmore, by decide, by decide⟩
  · have hlength := (h level n).length_le rest
    rw [writeField, List.length_append, List.length_append]
    exact hlength.trans (by omega)
  · obtain ⟨more, hmore, hname⟩ :=
      Quoted.read_write name (layout.colon ++ write layout level value rest)
    obtain ⟨blanks, hcolon, hblanks⟩ : ∃ blanks : List Char,
        layout.colon = ':' :: blanks ∧ ∀ cs, skipBlanks (blanks ++ cs) = skipBlanks cs := by
      cases layout
      · exact ⟨[], rfl, fun _ => rfl⟩
      · exact ⟨[' '], rfl, fun _ => rfl⟩
    have hmark : skipBlanks (layout.colon ++ write layout level value rest) =
        ':' :: (blanks ++ write layout level value rest) := by
      rw [hcolon, List.cons_append, skipBlanks_cons (by decide)]
    have hvalue := (h level n).read (blanks ++ write layout level value rest) rest hrest
      ((hblanks _).trans ((h level n).skipBlanks_text rest))
    rw [readField, hcs, writeField, hmore]
    simp only [hname, Option.bind_eq_bind, Option.bind_some, hmark, hvalue]
    split_ifs <;> rfl

theorem readsBack_object {fields : List (String × Json)}
    (h : ∀ field ∈ fields, ReadsBack layout field.2) : ReadsBack layout (object fields) := by
  intro level n
  have hfields (m : Nat) : ∀ field ∈ fields, ReadsItem (readField (readValue m)) '\x7d'
      (writeField layout (level + 1)) (fun f => f.2.nesting ≤ m) field :=
    fun field hfield => readsItem_field (h field hfield) (level + 1) m
  refine ⟨fun rest => ⟨'\x7b', _, write_object .., by decide, by decide⟩, fun rest => ?_,
    fun cs rest _ hcs => ?_⟩
  · have hlength := length_le_allItems layout level (hfields 0) rest
    rw [write_object, List.length_cons]
    omega
  · rw [write_object] at hcs
    rw [readValue_brace hcs, readContainer_allItems (.inr rfl) rest (hfields (n - 1)),
      if_congr nestingOfFields_le_iff.symm rfl rfl, ite_map_some]
    rfl

/-! ### Whole texts -/

/-- A text is read if no more containers are open at the same time than the reader allows. -/
theorem ofText?_write {value : Json} (h : ReadsBack layout value) :
    ofText? (write layout 0 value []) =
      if value.nesting ≤ maxNesting then some value else none := by
  have hvalue := (h 0 maxNesting).read _ [] endsNumber_nil ((h 0 maxNesting).skipBlanks_text [])
  rw [ofText?, hvalue]
  split_ifs <;> rfl

/-- The bytes of a text. -/
def textBytes (text : String) : Bytes :=
  text.toUTF8.data.toList

theorem ofBytes?_textBytes (text : String) : ofBytes? (textBytes text) = ofText? text.toList := by
  have hbytes : (⟨(textBytes text).toArray⟩ : ByteArray) = text.toUTF8 := rfl
  have hvalid : text.toUTF8.IsValidUTF8 := text.isValidUTF8
  have htext : String.fromUTF8? text.toUTF8 = some text := dif_pos hvalid
  rw [ofBytes?, hbytes, htext]
  rfl

theorem ofBytes?_render {value : Json} (h : ReadsBack layout value) :
    ofBytes? (textBytes (value.render layout)) =
      if value.nesting ≤ maxNesting then some value else none := by
  rw [ofBytes?_textBytes, render, String.toList_ofList, ofText?_write h]

end SegmentWire.Json
