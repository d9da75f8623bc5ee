import Mathlib.Data.List.Basic
import JsrD10f.Runs

/-!
# A pull parser

The tags of an XML document in the order in which a pull parser reports them.
The parser is a machine that reads one character at a time; a character that
cannot stand where it is found stops it.  Tags, attributes in either kind of
quotes, white space, empty elements and processing instructions are read as XML
1.0 defines them, every end tag must close the innermost open element, there is
one root, and no attribute comes twice in a tag.  Character data is skipped.
Entities, comments, sections of plain data and document types stop the machine:
the documents read here have none.

The depth of an event counts the open elements, its own included, at the start
tag and at the end tag alike.
-/

namespace XmlPull

inductive Event where
  | startTag (depth : Nat) (name : List Char) (attributes : List (List Char × List Char))
  | endTag (depth : Nat) (name : List Char)
deriving DecidableEq, Repr

/-- A start tag as far as it has been read. -/
structure Tag where
  name : List Char
  attributes : List (List Char × List Char)
deriving DecidableEq, Repr

/-- Where the machine stands between two characters. -/
inductive Mode where
  | content
  | markup
  | instruction (question : Bool)
  | tagName (name : List Char)
  | inTag (tag : Tag)
  | attributeName (tag : Tag) (key : List Char)
  | beforeEquals (tag : Tag) (key : List Char)
  | beforeQuote (tag : Tag) (key : List Char)
  | attributeValue (tag : Tag) (key : List Char) (quote : Char) (value : List Char)
  | afterValue (tag : Tag)
  | emptyTag (tag : Tag)
  | endName (name : List Char)
  | afterEndName (name : List Char)
deriving DecidableEq, Repr

structure Machine where
  mode : Mode
  path : List (List Char)
  rooted : Bool
  events : List Event
deriving DecidableEq, Repr

def isSpace (c : Char) : Bool :=
  c == ' ' || c == '\t' || c == '\n' || c == '\r'

def isNameStart (c : Char) : Bool :=
  c.isAlpha || c == '_' || c == ':'

def isNameChar (c : Char) : Bool :=
  isNameStart c || c.isDigit || c == '-' || c == '.'

/-- The end of a start tag. -/
def Machine.openTag (m : Machine) (tag : Tag) : Machine :=
  { mode := .content
    path := tag.name :: m.path
    rooted := true
    events := m.events ++ [.startTag (m.path.length + 1) tag.name tag.attributes] }

/-- The end of an empty element. -/
def Machine.openClose (m : Machine) (tag : Tag) : Machine :=
  { mode := .content
    path := m.path
    rooted := true
    events := m.events ++ [.startTag (m.path.length + 1) tag.name tag.attributes,
      .endTag (m.path.length + 1) tag.name] }

/-- The end of an end tag. -/
def Machine.closeTag (m : Machine) (name : List Char) : Option Machine :=
  match m.path with
  | [] => none
  | top :: rest =>
      if top = name then
        some { mode := .content, path := rest, rooted := m.rooted,
               events := m.events ++ [.endTag m.path.length name] }
      else none

-- a name for the comparison of keys, which `step` looks up
local instance lawfulKeys : LawfulBEq (List Char) := List.instLawfulBEq

/-- One character. -/
def step (m : Machine) (c : Char) : Option Machine :=
  match m.mode with
  | .content =>
      if c = '<' then some { m with mode := .markup }
      else if c = '&' then none
      else if m.path.isEmpty && !isSpace c then none
      else some m
  | .markup =>
      if c = '?' then some { m with mode := .instruction false }
      else if c = '/' then some { m with mode := .endName [] }
      else if isNameStart c && !(m.path.isEmpty && m.rooted) then
        some { m with mode := .tagName [c] }
      else none
  | .instruction question =>
      if question && c == '>' then some { m with mode := .content }
      else some { m with mode := .instruction (c == '?') }
  | .tagName name =>
      if isNameChar c then some { m with mode := .tagName (name ++ [c]) }
      else if isSpace c then some { m with mode := .inTag ⟨name, []⟩ }
      else if c = '>' then some (m.openTag ⟨name, []⟩)
      else if c = '/' then some { m with mode := .emptyTag ⟨name, []⟩ }
      else none
  | .inTag tag =>
      if isSpace c then some m
      else if isNameStart c then some { m with mode := .attributeName tag [c] }
      else if c = '>' then some (m.openTag tag)
      else if c = '/' then some { m with mode := .emptyTag tag }
      else none
  | .attributeName tag key =>
      if isNameChar c then some { m with mode := .attributeName tag (key ++ [c]) }
      else if c = '=' then some { m with mode := .beforeQuote tag key }
      else if isSpace c then some { m with mode := .beforeEquals tag key }
      else none
  | .beforeEquals tag key =>
      if c = '=' then some { m with mode := .beforeQuote tag key }
      else if isSpace c then some m
      else none
  | .beforeQuote tag key =>
      if c = '\x22' || c = '\x27' then some { m with mode := .attributeValue tag key c [] }
      else if isSpace c then some m
      else none
  | .attributeValue tag key quote value =>
      if c = quote then
        if key ∈ tag.attributes.map Prod.fst then none
        else some { m with mode := .afterValue ⟨tag.name, tag.attributes ++ [(key, value)]⟩ }
      else if c = '<' || c = '&' then none
      else
        -- white space in a value is reported as blanks
        some { m with mode := .attributeValue tag key quote
                        (value ++ [if isSpace c then ' ' else c]) }
  | .afterValue tag =>
      if isSpace c then some { m with mode := .inTag tag }
      else if c = '>' then some (m.openTag tag)
      else if c = '/' then some { m with mode := .emptyTag tag }
      else none
  | .emptyTag tag => if c = '>' then some (m.openClose tag) else none
  | .endName name =>
      if isNameChar c then some { m with mode := .endName (name ++ [c]) }
      else if isSpace c then some { m with mode := .afterEndName name }
      else if c = '>' then m.closeTag name
      else none
  | .afterEndName name =>
      if isSpace c then some m
      else if c = '>' then m.closeTag name
      else none

def start : Machine where
  mode := .content
  path := []
  rooted := false
  events := []

/-- The events of a document, or `none` if the text is not one. -/
def parse (text : List Char) : Option (List Event) :=
  (Runs.exec step start text).bind (fun m =>
    if m.mode = .content ∧ m.path = [] ∧ m.rooted = true then some m.events else none)

/-! ## Reading the parts of a tag -/

section Scan

variable {path : List (List Char)} {rooted : Bool} {events : List Event} {tag : Tag}

/-- A text that is a value as it stands. -/
def IsPlain (value : List Char) : Prop :=
  ∀ c ∈ value, c ≠ '\x22' ∧ c ≠ '<' ∧ c ≠ '&' ∧ (isSpace c = true → c = ' ')

instance (value : List Char) : Decidable (IsPlain value) :=
  List.decidableBAll _ value

theorem scan_spaces {ws : List Char} (h : ∀ c ∈ ws, isSpace c = true) :
    Runs.exec step ⟨.inTag tag, path, rooted, events⟩ ws =
      some ⟨.inTag tag, path, rooted, events⟩ := by
  induction ws with
  | nil => rfl
  | cons c ws ih =>
      obtain ⟨hc, hws⟩ := List.forall_mem_cons.mp h
      have hstep : step ⟨.inTag tag, path, rooted, events⟩ c =
          some ⟨.inTag tag, path, rooted, events⟩ := if_pos hc
      exact Runs.exec_cons_some.mpr ⟨_, hstep, ih hws⟩

theorem scan_key {key rest : List Char} (h : ∀ c ∈ rest, isNameChar c = true) :
    Runs.exec step ⟨.attributeName tag key, path, rooted, events⟩ rest =
      some ⟨.attributeName tag (key ++ rest), path, rooted, events⟩ := by
  induction rest generalizing key with
  | nil => rw [List.append_nil]; rfl
  | cons c rest ih =>
      obtain ⟨hc, hrest⟩ := List.forall_mem_cons.mp h
      have hstep : step ⟨.attributeName tag key, path, rooted, events⟩ c =
          some ⟨.attributeName tag (key ++ [c]), path, rooted, events⟩ := if_pos hc
      have hih := @ih (key ++ [c]) hrest
      rw [List.append_assoc, List.singleton_append] at hih
      exact Runs.exec_cons_some.mpr ⟨_, hstep, hih⟩

theorem scan_value {key value rest : List Char} (h : IsPlain rest) :
    Runs.exec step ⟨.attributeValue tag key '\x22' value, path, rooted, events⟩ rest =
      some ⟨.attributeValue tag key '\x22' (value ++ rest), path, rooted, events⟩ := by
  induction rest generalizing value with
  | nil => rw [List.append_nil]; rfl
  | cons c rest ih =>
      obtain ⟨⟨hquote, hopen, hamp, hspace⟩, hrest⟩ := List.forall_mem_cons.mp h
      have hsame : (if isSpace c = true then ' ' else c) = c := by
        by_cases hs : isSpace c = true
        · rw [if_pos hs, hspace hs]
        · rw [if_neg hs]
      have hstep : step ⟨.attributeValue tag key '\x22' value, path, rooted, events⟩ c =
          some ⟨.attributeValue tag key '\x22' (value ++ [c]), path, rooted, events⟩ := by
        simp [step, hquote, hopen, hamp, hsame]
      have hih := @ih (value ++ [c]) hrest
      rw [List.append_assoc, List.singleton_append] at hih
      exact Runs.exec_cons_some.mpr ⟨_, hstep, hih⟩

/-- **One attribute.**  White space, a new key, and a plain value in quotes with
white space behind it. -/
theorem scan_attribute (ws : List Char) (c : Char) (key : List Char) {value : List Char}
    (hws : ∀ c ∈ ws, isSpace c = true) (hstart : isNameStart c = true)
    (hkey : ∀ c ∈ key, isNameChar c = true) (hspace : isSpace c = false)
    (hnew : c :: key ∉ tag.attributes.map Prod.fst) (hvalue : IsPlain value) :
    Runs.exec step ⟨.inTag tag, path, rooted, events⟩
        (ws ++ c :: key ++ "=\"".toList ++ value ++ "\" \n".toList) =
      some ⟨.inTag ⟨tag.name, tag.attributes ++ [(c :: key, value)]⟩, path, rooted, events⟩ := by
  have hopen : Runs.exec step ⟨.inTag tag, path, rooted, events⟩ [c] =
      some ⟨.attributeName tag [c], path, rooted, events⟩ := by
    simp [Runs.exec, step, hspace, hstart]
  have hequals : Runs.exec step ⟨.attributeName tag (c :: key), path, rooted, events⟩
      "=\"".toList = some ⟨.attributeValue tag (c :: key) '\x22' [], path, rooted, events⟩ := rfl
  have hclose : Runs.exec step ⟨.attributeValue tag (c :: key) '\x22' value, path, rooted, events⟩
      "\" \n".toList =
      some ⟨.inTag ⟨tag.name, tag.attributes ++ [(c :: key, value)]⟩, path, rooted, events⟩ := by
    have hstep : step ⟨.attributeValue tag (c :: key) '\x22' value, path, rooted, events⟩ '\x22' =
        some ⟨.afterValue ⟨tag.name, tag.attributes ++ [(c :: key, value)]⟩, path, rooted,
          events⟩ := if_neg hnew
    exact Runs.exec_cons_some.mpr ⟨_, hstep, rfl⟩
  rw [← List.singleton_append, ← List.append_assoc]
  refine Runs.exec_append.mpr ⟨_, Runs.exec_append.mpr ⟨_, Runs.exec_append.mpr ⟨_,
    Runs.exec_append.mpr ⟨_, Runs.exec_append.mpr ⟨_, scan_spaces hws, hopen⟩,
      scan_key hkey⟩, hequals⟩, scan_value hvalue⟩, hclose⟩

/-- What is printed before a value: white space, the key and a quote. -/
def opens (opening key : List Char) : Bool :=
  opening.dropWhile isSpace == key ++ "=\"".toList &&
    match key with
    | [] => false
    | c :: rest => isNameStart c && !isSpace c && rest.all isNameChar

/-- One attribute as it is printed. -/
theorem scan_printed {tag : Tag} (opening : List Char) {key value : List Char}
    (hopens : opens opening key = true) (hnew : key ∉ tag.attributes.map Prod.fst)
    (hvalue : IsPlain value) :
    Runs.exec step ⟨.inTag tag, path, rooted, events⟩ (opening ++ value ++ "\" \n".toList) =
      some ⟨.inTag ⟨tag.name, tag.attributes ++ [(key, value)]⟩, path, rooted, events⟩ := by
  obtain ⟨hrest, hkey⟩ := Bool.and_eq_true_iff.mp hopens
  have hopening : opening = opening.takeWhile isSpace ++ key ++ "=\"".toList := by
    rw [List.append_assoc, ← beq_iff_eq.mp hrest]
    exact List.takeWhile_append_dropWhile.symm
  rw [hopening]
  cases key with
  | nil => cases hkey
  | cons c rest =>
      simp only [Bool.and_eq_true, Bool.not_eq_true', List.all_eq_true] at hkey
      exact scan_attribute _ c rest (List.all_eq_true.mp List.all_takeWhile) hkey.1.1 hkey.2 hkey.1.2
        hnew hvalue

end Scan

end XmlPull
