import TensorIR.Json
import TensorIR.Text.Numeral

/-!
# A document can be read off its text

Different documents have different texts, in either layout (`compact_injective`,
`pretty_injective`). What makes this true is that a text says by itself where it ends: of a numeral
one has to know that no digit follows, a string ends at the first quote that no backslash covers,
and brackets close what they have opened. So a text in front of anything else that may follow it
determines both the document and what follows (`Told`), and this passes from the items to the list.

The two layouts differ in blanks only. They are written here by one function (`write`), with the
layout as a parameter, so that the argument is made once.
-/

set_option autoImplicit false

namespace TensorIR.Json

/-! ## One writer for both layouts -/

/-- The blanks that a document is laid out with. -/
structure Layout where
  /-- What stands in front of an item or a closing bracket of a level. -/
  gap : Nat → List Char
  /-- What stands between the colon of a field and its value. -/
  space : List Char
  blank : ∀ level, ∀ c ∈ gap level, c = '\n' ∨ c = ' '

/-- No blanks at all. -/
def Layout.compact : Layout where
  gap _ := []
  space := []
  blank := by simp

/-- Every item and every field on a line of its own. -/
def Layout.pretty : Layout where
  gap level := '\n' :: List.replicate (2 * level) ' '
  space := [' ']
  blank level c hc := by
    rcases List.mem_cons.mp hc with hc | hc
    · exact .inl hc
    · exact .inr (List.eq_of_mem_replicate hc)

/-- What follows an item of a list: the other items and the closing bracket. -/
def remainder (l : Layout) (level : Nat) (closing : Char) : List (List Char) → List Char
  | [] => l.gap level ++ [closing]
  | text :: texts => ',' :: (l.gap (level + 1) ++ text ++ remainder l level closing texts)

/-- A list of items between brackets. -/
def bracketed (l : Layout) (level : Nat) (opening closing : Char) : List (List Char) → List Char
  | [] => [opening, closing]
  | text :: texts => opening :: (l.gap (level + 1) ++ text ++ remainder l level closing texts)

/-- A field: its name, a colon and its value. -/
def labelled (l : Layout) (name : String) (value : List Char) : List Char :=
  (quoted name).toList ++ ':' :: (l.space ++ value)

mutual

/-- The text of a document at a level. -/
def write (l : Layout) (level : Nat) : Json → List Char
  | .null => ['n', 'u', 'l', 'l']
  | .number value => (toString value).toList
  | .string text => (quoted text).toList
  | .array items => bracketed l level '[' ']' (writeItems l (level + 1) items)
  | .object fields => bracketed l level '\x7b' '\x7d' (writeFields l (level + 1) fields)

/-- The texts of items. -/
def writeItems (l : Layout) (level : Nat) : List Json → List (List Char)
  | [] => []
  | item :: items => write l level item :: writeItems l level items

/-- The texts of fields. -/
def writeFields (l : Layout) (level : Nat) : List (String × Json) → List (List Char)
  | [] => []
  | (name, value) :: fields =>
    labelled l name (write l level value) :: writeFields l level fields

end

/-- The text of a field at a level. -/
def writeField (l : Layout) (level : Nat) (field : String × Json) : List Char :=
  labelled l field.1 (write l level field.2)

theorem writeItems_eq_map (l : Layout) (level : Nat) (items : List Json) :
    writeItems l level items = items.map (write l level) := by
  induction items with
  | nil => rfl
  | cons item items ih => rw [writeItems, ih, List.map_cons]

theorem writeFields_eq_map (l : Layout) (level : Nat) (fields : List (String × Json)) :
    writeFields l level fields = fields.map (writeField l level) := by
  induction fields with
  | nil => rfl
  | cons field fields ih => rw [writeFields, ih, List.map_cons, writeField]

/-! ## The layouts are the two of documents -/

mutual

theorem toList_compact (level : Nat) : ∀ document : Json,
    document.compact.toList = write .compact level document
  | .null => by simp [Json.compact, write]
  | .number value => by simp [Json.compact, write]
  | .string text => by simp [Json.compact, write]
  | .array items => by
    have := toList_compactItems level items
    simpa [Json.compact, write] using this
  | .object fields => by
    have := toList_compactFields level fields
    simpa [Json.compact, write] using this

theorem toList_compactItems (level : Nat) : ∀ items : List Json,
    '[' :: ((compactItems items).toList ++ [']']) =
      bracketed .compact level '[' ']' (writeItems .compact (level + 1) items)
  | [] => by simp [compactItems, writeItems, bracketed]
  | [item] => by
    simp [compactItems, writeItems, bracketed, remainder, Layout.compact,
      toList_compact (level + 1) item]
  | item :: next :: items => by
    have := toList_compactItems level (next :: items)
    simp_all [compactItems, writeItems, bracketed, remainder, Layout.compact,
      toList_compact (level + 1) item]

theorem toList_compactFields (level : Nat) : ∀ fields : List (String × Json),
    '\x7b' :: ((compactFields fields).toList ++ ['\x7d']) =
      bracketed .compact level '\x7b' '\x7d' (writeFields .compact (level + 1) fields)
  | [] => by simp [compactFields, writeFields, bracketed]
  | [(name, value)] => by
    simp [compactFields, writeFields, labelled, bracketed, remainder, Layout.compact,
      toList_compact (level + 1) value]
  | (name, value) :: next :: fields => by
    have := toList_compactFields level (next :: fields)
    simp_all [compactFields, writeFields, labelled, bracketed, remainder, Layout.compact,
      toList_compact (level + 1) value]

end

theorem toList_indent (level : Nat) : (indent level).toList = Layout.pretty.gap level := by
  simp [indent, Layout.pretty]

mutual

theorem toList_prettyAt (level : Nat) : ∀ document : Json,
    (document.prettyAt level).toList = write .pretty level document
  | .null => by simp [prettyAt, write]
  | .number value => by simp [prettyAt, write]
  | .string text => by simp [prettyAt, write]
  | .array [] => by simp [prettyAt, write, writeItems, bracketed]
  | .array (item :: items) => by
    have := toList_prettyItems level (item :: items) (List.cons_ne_nil _ _)
    simpa [prettyAt, write, toList_indent] using this
  | .object [] => by simp [prettyAt, write, writeFields, bracketed]
  | .object (field :: fields) => by
    have := toList_prettyFields level (field :: fields) (List.cons_ne_nil _ _)
    simpa [prettyAt, write, toList_indent] using this

theorem toList_prettyItems (level : Nat) : ∀ items : List Json, items ≠ [] →
    '[' :: ((prettyItems (level + 1) items).toList ++ (Layout.pretty.gap level ++ [']'])) =
      bracketed .pretty level '[' ']' (writeItems .pretty (level + 1) items)
  | [], h => absurd rfl h
  | [item], _ => by
    simp [prettyItems, writeItems, bracketed, remainder, toList_indent,
      toList_prettyAt (level + 1) item]
  | item :: next :: items, _ => by
    have := toList_prettyItems level (next :: items) (List.cons_ne_nil _ _)
    simp_all [prettyItems, writeItems, bracketed, remainder, toList_indent,
      toList_prettyAt (level + 1) item]

theorem toList_prettyFields (level : Nat) : ∀ fields : List (String × Json), fields ≠ [] →
    '\x7b' :: ((prettyFields (level + 1) fields).toList ++
        (Layout.pretty.gap level ++ ['\x7d'])) =
      bracketed .pretty level '\x7b' '\x7d' (writeFields .pretty (level + 1) fields)
  | [], h => absurd rfl h
  | [(name, value)], _ => by
    simp [prettyFields, writeFields, labelled, bracketed, remainder, toList_indent,
      toList_prettyAt (level + 1) value, Layout.pretty]
  | (name, value) :: next :: fields, _ => by
    have := toList_prettyFields level (next :: fields) (List.cons_ne_nil _ _)
    simp_all [prettyFields, writeFields, labelled, bracketed, remainder, toList_indent,
      toList_prettyAt (level + 1) value, Layout.pretty]

end

/-! ## Strings -/

/-- The value of a hexadecimal digit. -/
def hexValue (c : Char) : Nat := if c.isDigit then c.toNat - 48 else c.toNat - 87

/-- The character that an escaped text starts with, and the rest. Nothing is read at the end and at
a quote. -/
def unescape? : List Char → Option (Char × List Char)
  | [] => none
  | '"' :: _ => none
  | '\\' :: 'b' :: rest => some (Char.ofNat 0x8, rest)
  | '\\' :: 'f' :: rest => some (Char.ofNat 0xc, rest)
  | '\\' :: 'n' :: rest => some ('\n', rest)
  | '\\' :: 'r' :: rest => some ('\r', rest)
  | '\\' :: 't' :: rest => some ('\t', rest)
  | '\\' :: 'u' :: '0' :: '0' :: high :: low :: rest =>
    some (Char.ofNat (16 * hexValue high + hexValue low), rest)
  | '\\' :: c :: rest => some (c, rest)
  | c :: rest => some (c, rest)

theorem hexValue_hexDigit : ∀ n < 16, hexValue (hexDigit n) = n := by decide

theorem unescape?_escape (c : Char) (rest : List Char) :
    unescape? (escape c ++ rest) = some (c, rest) := by
  have hcode (n : Nat) (h : c.toNat = n) : Char.ofNat n = c := by rw [← h, Char.ofNat_toNat]
  unfold escape
  split
  next h => subst h; rfl
  split
  next h => subst h; rfl
  split
  next h => rw [← hcode _ h]; rfl
  split
  next h => rw [← hcode _ h]; rfl
  split
  next h => subst h; rfl
  split
  next h => subst h; rfl
  split
  next h => subst h; rfl
  split
  next h =>
    have hhigh : hexValue (hexDigit (c.toNat / 16)) = c.toNat / 16 :=
      hexValue_hexDigit _ (by omega)
    have hlow : hexValue (hexDigit (c.toNat % 16)) = c.toNat % 16 :=
      hexValue_hexDigit _ (by omega)
    have hsum : 16 * (c.toNat / 16) + c.toNat % 16 = c.toNat := by omega
    simp only [List.cons_append, List.nil_append, unescape?, hhigh, hlow, hsum, Char.ofNat_toNat]
  next hquote hbackslash _ _ _ _ _ _ =>
    -- A character that stands for itself is neither the quote nor the backslash.
    rw [List.cons_append, List.nil_append, unescape?.eq_def]
    split <;> simp_all

theorem escape_append_inj {c d : Char} {r s : List Char} (h : escape c ++ r = escape d ++ s) :
    c = d ∧ r = s := by
  have : some (c, r) = some (d, s) := by rw [← unescape?_escape c r, h, unescape?_escape]
  simpa using this

/-- The closing quote is the first one that is not escaped. -/
theorem escape_append_ne (c : Char) (r s : List Char) : escape c ++ r ≠ '"' :: s := by
  intro h
  have := unescape?_escape c r
  rw [h] at this
  cases this

theorem flatMap_escape_inj {cs ds : List Char} {r s : List Char}
    (h : cs.flatMap escape ++ '"' :: r = ds.flatMap escape ++ '"' :: s) : cs = ds ∧ r = s := by
  induction cs generalizing ds with
  | nil =>
    cases ds with
    | nil => simpa using h
    | cons d ds =>
      rw [List.flatMap_cons, List.append_assoc] at h
      exact absurd h.symm (escape_append_ne d _ r)
  | cons c cs ih =>
    cases ds with
    | nil =>
      rw [List.flatMap_cons, List.append_assoc] at h
      exact absurd h (escape_append_ne c _ s)
    | cons d ds =>
      rw [List.flatMap_cons, List.flatMap_cons, List.append_assoc, List.append_assoc] at h
      obtain ⟨rfl, hrest⟩ := escape_append_inj h
      obtain ⟨rfl, rfl⟩ := ih hrest
      exact ⟨rfl, rfl⟩

theorem quoted_append_inj {a b : String} {r s : List Char}
    (h : (quoted a).toList ++ r = (quoted b).toList ++ s) : a = b ∧ r = s := by
  have hbody : a.toList.flatMap escape ++ '"' :: r = b.toList.flatMap escape ++ '"' :: s := by
    simpa [quoted] using h
  obtain ⟨htext, hrest⟩ := flatMap_escape_inj hbody
  exact ⟨String.toList_inj.mp htext, hrest⟩

/-! ## Numbers -/

/-- Nothing follows that could continue a numeral. -/
def Free (r : List Char) : Prop := ∀ c ∈ r.head?, c.isDigit = false

theorem toList_number (value : Int) : (toString value).toList =
    if value < 0 then '-' :: Numeral.digits value.natAbs else Numeral.digits value.natAbs := by
  cases value with
  | ofNat n => simp [Int.repr_eq_if, Numeral.digits]
  | negSucc n => simp [Int.repr_eq_if, Numeral.digits]

theorem number_append_inj {a b : Int} {r s : List Char} (hr : Free r) (hs : Free s)
    (h : (toString a).toList ++ r = (toString b).toList ++ s) : a = b ∧ r = s := by
  have hsign (n : Nat) (t u : List Char) : '-' :: t ≠ Numeral.digits n ++ u := by
    intro heq
    have hfirst : '-' ∈ Numeral.digits n := by
      cases hd : Numeral.digits n with
      | nil => exact absurd hd (Numeral.digits_ne_nil n)
      | cons c cs =>
        rw [hd, List.cons_append] at heq
        rw [(List.cons.inj heq).1]
        exact List.mem_cons_self
    exact Numeral.notMem_digits (by decide) n hfirst
  rw [toList_number, toList_number] at h
  split at h
  next ha =>
    split at h
    next hb =>
      obtain ⟨hvalue, hrest⟩ := Numeral.digits_append_inj hr hs (List.cons.inj h).2
      exact ⟨by omega, hrest⟩
    next hb => exact absurd h (hsign _ _ _)
  next ha =>
    split at h
    next hb => exact absurd h.symm (hsign _ _ _)
    next hb =>
      obtain ⟨hvalue, hrest⟩ := Numeral.digits_append_inj hr hs h
      exact ⟨by omega, hrest⟩

/-! ## Lists -/

variable {l : Layout} {level : Nat} {closing : Char}

/-- A bracket that closes a list. -/
def Closes (closing : Char) : Prop := closing = ']' ∨ closing = '\x7d'

/-- What does not start with a character does not do so behind blanks either. -/
theorem gap_append_ne {c : Char} {t : List Char} (hc : c ≠ '\n' ∧ c ≠ ' ')
    (ht : ∀ s, t ≠ c :: s) (s : List Char) : l.gap level ++ t ≠ c :: s := by
  intro h
  cases hgap : l.gap level with
  | nil =>
    rw [hgap] at h
    exact ht s h
  | cons d ds =>
    have hblank := l.blank level d (hgap ▸ List.mem_cons_self)
    rw [hgap, List.cons_append] at h
    obtain rfl := (List.cons.inj h).1
    exact hblank.elim hc.1 hc.2

theorem free_gap_append {t : List Char} (ht : Free t) : Free (l.gap level ++ t) := by
  cases hgap : l.gap level with
  | nil => exact ht
  | cons d ds =>
    have hblank := l.blank level d (hgap ▸ List.mem_cons_self)
    rcases hblank with rfl | rfl <;> simp [Free]

theorem free_remainder (hclosing : Closes closing) (texts : List (List Char)) (r : List Char) :
    Free (remainder l level closing texts ++ r) := by
  cases texts with
  | nil =>
    rw [remainder, List.append_assoc]
    exact free_gap_append (by rcases hclosing with rfl | rfl <;> simp [Free])
  | cons text texts => simp [remainder, Free]

theorem gap_append_closing_ne (hclosing : Closes closing) (r s : List Char) :
    l.gap level ++ closing :: r ≠ ',' :: s :=
  gap_append_ne (by decide) (fun _ => by rcases hclosing with rfl | rfl <;> simp) s

section Lists

variable {α : Type} {text : α → List Char} {xs ys : List α} {r s : List Char}

/-- The text of an item determines the item and what follows it, whatever that is. -/
def Told (text : α → List Char) (x : α) : Prop :=
  ∀ y r s, Free r → Free s → text x ++ r = text y ++ s → x = y ∧ r = s

theorem remainder_inj (hclosing : Closes closing) (hxs : ∀ x ∈ xs, Told text x)
    (h : remainder l level closing (xs.map text) ++ r =
      remainder l level closing (ys.map text) ++ s) : xs = ys ∧ r = s := by
  induction xs generalizing ys with
  | nil =>
    cases ys with
    | nil => simpa [remainder] using h
    | cons y ys =>
      simp only [List.map_nil, List.map_cons, remainder, List.append_assoc, List.cons_append,
        List.nil_append] at h
      exact absurd h (gap_append_closing_ne hclosing _ _)
  | cons x xs ih =>
    obtain ⟨hx, hxs⟩ := List.forall_mem_cons.mp hxs
    cases ys with
    | nil =>
      simp only [List.map_nil, List.map_cons, remainder, List.append_assoc, List.cons_append,
        List.nil_append] at h
      exact absurd h.symm (gap_append_closing_ne hclosing _ _)
    | cons y ys =>
      -- The blanks are the same on both sides, and no item runs on into what follows it.
      simp only [List.map_cons, remainder, List.append_assoc, List.cons_append] at h
      have hitems := List.append_cancel_left (List.cons.inj h).2
      obtain ⟨rfl, hrest⟩ := hx y _ _ (free_remainder hclosing _ _)
        (free_remainder hclosing _ _) hitems
      obtain ⟨rfl, rfl⟩ := ih hxs hrest
      exact ⟨rfl, rfl⟩

/-- Brackets around items, none of which can be mistaken for the closing one. -/
theorem bracketed_inj {opening : Char} (hclosing : Closes closing)
    (hxs : ∀ x ∈ xs, Told text x) (hstart : ∀ x r s, text x ++ r ≠ closing :: s)
    (h : bracketed l level opening closing (xs.map text) ++ r =
      bracketed l level opening closing (ys.map text) ++ s) : xs = ys ∧ r = s := by
  have hblank : closing ≠ '\n' ∧ closing ≠ ' ' := by
    rcases hclosing with rfl | rfl <;> decide
  have hitem (x : α) (t u : List Char) : l.gap (level + 1) ++ (text x ++ t) ≠ closing :: u :=
    gap_append_ne hblank (hstart x t) u
  cases xs with
  | nil =>
    cases ys with
    | nil => simpa [bracketed] using h
    | cons y ys =>
      simp only [List.map_nil, List.map_cons, bracketed, List.append_assoc, List.cons_append,
        List.nil_append] at h
      exact absurd (List.cons.inj h).2.symm (hitem y _ _)
  | cons x xs =>
    obtain ⟨hx, hxs⟩ := List.forall_mem_cons.mp hxs
    cases ys with
    | nil =>
      simp only [List.map_nil, List.map_cons, bracketed, List.append_assoc, List.cons_append,
        List.nil_append] at h
      exact absurd (List.cons.inj h).2 (hitem x _ _)
    | cons y ys =>
      simp only [List.map_cons, bracketed, List.append_assoc, List.cons_append] at h
      have hitems := List.append_cancel_left (List.cons.inj h).2
      obtain ⟨rfl, hrest⟩ := hx y _ _ (free_remainder hclosing _ _)
        (free_remainder hclosing _ _) hitems
      obtain ⟨rfl, rfl⟩ := remainder_inj hclosing hxs hrest
      exact ⟨rfl, rfl⟩

end Lists

/-! ## Documents -/

/-- The character is one that the text of the document may start with. -/
def Starts (c : Char) : Json → Prop
  | .null => c = 'n'
  | .number _ => c = '-' ∨ c.isDigit = true
  | .string _ => c = '"'
  | .array _ => c = '['
  | .object _ => c = '\x7b'

theorem exists_start (l : Layout) (level : Nat) (document : Json) :
    ∃ c cs, write l level document = c :: cs ∧ Starts c document := by
  cases document with
  | null => exact ⟨_, _, by rw [write], rfl⟩
  | number value =>
    rw [write, toList_number]
    split
    · exact ⟨_, _, rfl, .inl rfl⟩
    · cases hd : Numeral.digits value.natAbs with
      | nil => exact absurd hd (Numeral.digits_ne_nil _)
      | cons c cs =>
        have hall := List.all_eq_true.mp (Numeral.all_isDigit_digits value.natAbs)
        exact ⟨c, cs, rfl, .inr (hall c (hd ▸ List.mem_cons_self))⟩
  | string text => exact ⟨'"', _, by rw [write, quoted, String.toList_ofList]; rfl, rfl⟩
  | array items => rw [write]; cases writeItems l (level + 1) items <;> exact ⟨_, _, rfl, rfl⟩
  | object fields => rw [write]; cases writeFields l (level + 1) fields <;> exact ⟨_, _, rfl, rfl⟩

/-- Which kind of document starts with a character. -/
def kindOf : Char → Nat
  | 'n' => Json.null.ctorIdx
  | '"' => (Json.string "").ctorIdx
  | '[' => (Json.array []).ctorIdx
  | '\x7b' => (Json.object []).ctorIdx
  | _ => (Json.number 0).ctorIdx

theorem Starts.kind {c : Char} {document : Json} (h : Starts c document) :
    document.ctorIdx = kindOf c := by
  cases document with
  | null | string | array | object => rw [show c = _ from h]; rfl
  | number value =>
    rcases h with rfl | hdigit
    · rfl
    · unfold kindOf
      split
      · exact absurd hdigit (by decide)
      · exact absurd hdigit (by decide)
      · exact absurd hdigit (by decide)
      · exact absurd hdigit (by decide)
      · rfl

theorem kind_of_write {d d' : Json} {r s : List Char}
    (h : write l level d ++ r = write l level d' ++ s) : d.ctorIdx = d'.ctorIdx := by
  obtain ⟨c, cs, hd, hc⟩ := exists_start l level d
  obtain ⟨c', cs', hd', hc'⟩ := exists_start l level d'
  rw [hd, hd', List.cons_append, List.cons_append] at h
  obtain rfl := (List.cons.inj h).1
  rw [hc.kind, hc'.kind]

theorem write_ne_closing (hclosing : Closes closing) (d : Json) (r s : List Char) :
    write l level d ++ r ≠ closing :: s := by
  intro h
  obtain ⟨c, cs, hd, hc⟩ := exists_start l level d
  rw [hd, List.cons_append] at h
  obtain rfl := (List.cons.inj h).1
  rcases hclosing with rfl | rfl <;> cases d <;> revert hc <;> simp [Starts]

theorem told_field {field : String × Json} (h : Told (write l level) field.2) :
    Told (writeField l level) field := by
  rintro ⟨name, value⟩ r s hr hs htext
  simp only [writeField, labelled, List.append_assoc, List.cons_append] at htext
  obtain ⟨hname, hrest⟩ := quoted_append_inj htext
  have hvalue := List.append_cancel_left (List.cons.inj hrest).2
  obtain ⟨hvalue, hrest⟩ := h value r s hr hs hvalue
  exact ⟨Prod.ext hname hvalue, hrest⟩

/-- The text of a document determines the document and what follows it, whatever that is. -/
theorem told_write (l : Layout) (level : Nat) : ∀ document : Json, Told (write l level) document
  | .null => by
    intro d' r s _ _ h
    have hkind := kind_of_write h
    cases d' with
    | null => exact ⟨rfl, List.append_cancel_left h⟩
    | number | string | array | object => cases hkind
  | .number value => by
    intro d' r s hr hs h
    have hkind := kind_of_write h
    cases d' with
    | number value' =>
      simp only [write] at h
      obtain ⟨rfl, rfl⟩ := number_append_inj hr hs h
      exact ⟨rfl, rfl⟩
    | null | string | array | object => cases hkind
  | .string text => by
    intro d' r s _ _ h
    have hkind := kind_of_write h
    cases d' with
    | string text' =>
      simp only [write] at h
      obtain ⟨rfl, rfl⟩ := quoted_append_inj h
      exact ⟨rfl, rfl⟩
    | null | number | array | object => cases hkind
  | .array items => by
    have ih : ∀ item ∈ items, Told (write l (level + 1)) item :=
      fun item _ => told_write l (level + 1) item
    intro d' r s _ _ h
    have hkind := kind_of_write h
    cases d' with
    | array items' =>
      simp only [write, writeItems_eq_map] at h
      obtain ⟨rfl, rfl⟩ := bracketed_inj (.inl rfl) ih (write_ne_closing (.inl rfl)) h
      exact ⟨rfl, rfl⟩
    | null | number | string | object => cases hkind
  | .object fields => by
    have ih : ∀ field ∈ fields, Told (writeField l (level + 1)) field :=
      fun field _ => told_field (told_write l (level + 1) field.2)
    have hstart (field : String × Json) (r s : List Char) :
        writeField l (level + 1) field ++ r ≠ '\x7d' :: s := by
      simp [writeField, labelled, quoted]
    intro d' r s _ _ h
    have hkind := kind_of_write h
    cases d' with
    | object fields' =>
      simp only [write, writeFields_eq_map] at h
      obtain ⟨rfl, rfl⟩ := bracketed_inj (.inr rfl) ih hstart h
      exact ⟨rfl, rfl⟩
    | null | number | string | array => cases hkind
termination_by document => sizeOf document
decreasing_by
  · have := List.sizeOf_lt_of_mem ‹item ∈ items›
    simp only [Json.array.sizeOf_spec]
    omega
  · have := List.sizeOf_lt_of_mem ‹field ∈ fields›
    cases field
    simp only [Json.object.sizeOf_spec, Prod.mk.sizeOf_spec] at this ⊢
    omega

theorem write_injective (l : Layout) (level : Nat) : Function.Injective (write l level) := by
  intro d d' h
  exact (told_write l level d d' [] [] (by simp [Free]) (by simp [Free])
    (by rw [h])).1

theorem compact_injective : Function.Injective compact := by
  intro d d' h
  exact write_injective .compact 0 (by rw [← toList_compact, ← toList_compact, h])

theorem pretty_injective : Function.Injective pretty := by
  intro d d' h
  have htext : d.prettyAt 0 = d'.prettyAt 0 := h
  exact write_injective .pretty 0 (by rw [← toList_prettyAt, ← toList_prettyAt, htext])

end TensorIR.Json
