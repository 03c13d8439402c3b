import DescriptorSql.Text.Blank
import Mathlib

/-!
# `Proofs/Lexical/Item.lean` — the items of a statement's text

To say what a statement *means* one has to read it, and reading starts here: a text is cut into
words, quoted names, quoted literals, commas and blanks, and what stands between two parentheses
becomes one item. The reader knows two kinds of quotes, and that a quote written twice inside its
own kind does not end it. It knows nothing else of the language, so everything that is said below
about precedence or clauses is said about lists of items.

`Item.ofChars?` answers only for texts that leave no quote and no parenthesis open and close none
that was not opened. It loses nothing: the items of a text spell the text (`textOf_ofChars?`).
-/

set_option autoImplicit false

namespace DescriptorSql.Sql

/-- The two kinds of quoted text: literals and names. -/
inductive Quote where
  | literal
  | name
  deriving DecidableEq

def Quote.mark : Quote → Char
  | .literal => '\''
  | .name => '\x22'

/-- The quoted text that a character begins. -/
def Quote.ofMark? (c : Char) : Option Quote :=
  if c = '\'' then some .literal else if c = '\x22' then some .name else none

/-- One item of a text. The body of quoted text is kept as it is written, doubled quotes and all. -/
inductive Item where
  | blank (c : Char)
  | comma
  | word (cs : List Char)
  | quoted (quote : Quote) (body : List Char)
  | group (items : List Item)

mutual

def Item.text : Item → List Char
  | .blank c => [c]
  | .comma => [',']
  | .word cs => cs
  | .quoted quote body => quote.mark :: body ++ [quote.mark]
  | .group items => '(' :: textOf items ++ [')']

def textOf : List Item → List Char
  | [] => []
  | item :: rest => item.text ++ textOf rest

end

/-! ## The reader -/

/-- What ends a word without being part of it, quotes aside. -/
def isSeparator (c : Char) : Bool := c = '(' || c = ')' || c = ',' || Text.isBlank c

/-- What a word is made of. -/
def isWordPart (c : Char) : Bool := !isSeparator c && (Quote.ofMark? c).isNone

/-- What the reader has begun and may still go on. After a quote that ends quoted text nothing is
decided yet: the same quote once more takes the text up again. -/
inductive Pending where
  | nothing
  | word (cs : List Char)
  | inside (quote : Quote) (body : List Char)
  | after (quote : Quote) (body : List Char)

namespace Pending

/-- The item that is complete if nothing more comes. -/
def items : Pending → List Item
  | .nothing | .inside _ _ => []
  | .word cs => [.word cs]
  | .after quote body => [.quoted quote body]

/-- Quoted text has begun and not ended. -/
def isOpen : Pending → Bool
  | .inside _ _ => true
  | _ => false

def text : Pending → List Char
  | .nothing => []
  | .word cs => cs
  | .inside quote body => quote.mark :: body
  | .after quote body => quote.mark :: body ++ [quote.mark]

end Pending

/-- The reader: the items behind the innermost open parenthesis, and for each parenthesis that is
open the items before it, the innermost first. -/
structure Reader where
  pending : Pending := .nothing
  items : List Item := []
  outer : List (List Item) := []

namespace Reader

/-- What has begun is taken as complete. -/
def settle (r : Reader) : Reader := ⟨.nothing, r.items ++ r.pending.items, r.outer⟩

/-- Something else has begun. -/
def hold (r : Reader) (pending : Pending) : Reader := ⟨pending, r.items, r.outer⟩

def add (r : Reader) (item : Item) : Reader := ⟨r.pending, r.items ++ [item], r.outer⟩

/-- An opening parenthesis. -/
def enter (r : Reader) : Reader := ⟨.nothing, [], r.items :: r.outer⟩

/-- A closing parenthesis; there is none to close outside of all parentheses. -/
def close (r : Reader) : Option Reader :=
  match r.outer with
  | [] => none
  | frame :: outer => some ⟨.nothing, frame ++ [.group r.items], outer⟩

/-- A character outside of quotes. -/
def outside (r : Reader) (c : Char) : Option Reader :=
  match Quote.ofMark? c with
  | some quote => some (r.settle.hold (.inside quote []))
  | none =>
    if c = '(' then some r.settle.enter
    else if c = ')' then r.settle.close
    else if c = ',' then some (r.settle.add .comma)
    else if Text.isBlank c then some (r.settle.add (.blank c))
    else
      match r.pending with
      | .word cs => some (r.hold (.word (cs ++ [c])))
      | _ => some (r.settle.hold (.word [c]))

def step (r : Reader) (c : Char) : Option Reader :=
  match r.pending with
  | .inside quote body =>
    some (r.hold (if c = quote.mark then .after quote body else .inside quote (body ++ [c])))
  | .after quote body =>
    if c = quote.mark then some (r.hold (.inside quote (body ++ [c, c]))) else r.outside c
  | .nothing | .word _ => r.outside c

def run (r : Reader) (cs : List Char) : Option Reader := cs.foldlM step r

/-- The items, if nothing is left open. -/
def finish (r : Reader) : Option (List Item) :=
  if r.pending.isOpen || !r.outer.isEmpty then none else some r.settle.items

end Reader

/-- The items of a text; `none` if it leaves a quote or a parenthesis open, or closes a parenthesis
that is not open. -/
def Item.ofChars? (cs : List Char) : Option (List Item) :=
  (Reader.run {} cs).bind Reader.finish

def items? (text : String) : Option (List Item) := Item.ofChars? text.toList

/-! ## Nothing is lost -/

theorem textOf_append (as bs : List Item) : textOf (as ++ bs) = textOf as ++ textOf bs := by
  induction as with
  | nil => rfl
  | cons a as ih => simp [textOf, ih]

@[simp] theorem textOf_singleton (item : Item) : textOf [item] = item.text := by
  simp [textOf]

theorem Pending.textOf_items {pending : Pending} (h : pending.isOpen = false) :
    textOf pending.items = pending.text := by
  cases pending with
  | nothing => rfl
  | inside quote body => cases h
  | word cs => simp [Pending.items, Pending.text, Item.text]
  | after quote body => simp [Pending.items, Pending.text, Item.text]

theorem Quote.eq_mark_of_ofMark? {c : Char} {quote : Quote} (h : Quote.ofMark? c = some quote) :
    c = quote.mark := by
  unfold Quote.ofMark? at h
  split at h
  · next hc => cases h; exact hc
  split at h
  · next hc => cases h; exact hc
  · cases h

namespace Reader

/-- What has been read so far. -/
def written (r : Reader) : List Char :=
  (r.outer.reverse.flatMap fun frame => textOf frame ++ ['(']) ++ textOf r.items ++ r.pending.text

theorem written_settle {r : Reader} (h : r.pending.isOpen = false) :
    r.settle.written = r.written := by
  simp [written, settle, textOf_append, Pending.textOf_items h, Pending.text]

theorem written_close {r r' : Reader} (h : r.close = some r') (hpending : r.pending = .nothing) :
    r'.written = r.written ++ [')'] := by
  unfold close at h
  split at h
  · cases h
  · next frame outer hframe =>
    cases h
    simp [written, hpending, hframe, Pending.text, textOf_append, Item.text]

theorem written_outside {r r' : Reader} {c : Char} (hopen : r.pending.isOpen = false)
    (h : r.outside c = some r') : r'.written = r.written ++ [c] := by
  have hsettle := written_settle hopen
  unfold outside at h
  split at h
  · next quote hquote =>
    cases h
    rw [← hsettle, Quote.eq_mark_of_ofMark? hquote]
    simp [written, settle, hold, Pending.text]
  split at h
  · next hc =>
      subst hc; cases h; rw [← hsettle]; simp [written, settle, enter, Pending.text, textOf]
  split at h
  · next hc =>
    -- `settle` has left nothing pending, so only the frame is closed
    subst hc
    rw [← hsettle]
    exact written_close h rfl
  split at h
  · next hc =>
    subst hc
    cases h
    rw [← hsettle]
    simp [written, settle, add, Pending.text, textOf_append, Item.text]
  split at h
  · cases h; rw [← hsettle]; simp [written, settle, add, Pending.text, textOf_append, Item.text]
  · split at h
    · next cs hp => cases h; simp [written, hold, hp, Pending.text]
    · cases h; rw [← hsettle]; simp [written, settle, hold, Pending.text]

theorem written_step {r r' : Reader} {c : Char} (h : r.step c = some r') :
    r'.written = r.written ++ [c] := by
  unfold step at h
  split at h
  · next quote body hp =>
    cases h
    by_cases hc : c = quote.mark <;> simp [written, hold, hp, hc, Pending.text]
  · next quote body hp =>
    split at h
    · next hc => cases h; simp [written, hold, hp, hc, Pending.text]
    · exact written_outside (by simp [hp, Pending.isOpen]) h
  · next hp => exact written_outside (by simp [hp, Pending.isOpen]) h
  · next cs hp => exact written_outside (by simp [hp, Pending.isOpen]) h

theorem written_run {r r' : Reader} {cs : List Char} (h : r.run cs = some r') :
    r'.written = r.written ++ cs := by
  induction cs generalizing r with
  | nil => cases h; simp
  | cons c cs ih =>
    obtain ⟨next, hnext, hrest⟩ := Option.bind_eq_some_iff.mp h
    rw [ih hrest, written_step hnext, List.append_assoc]
    rfl

theorem finish_eq_some_iff {r : Reader} {items : List Item} :
    r.finish = some items ↔
      r.pending.isOpen = false ∧ r.outer = [] ∧ r.items ++ r.pending.items = items := by
  unfold finish
  cases hopen : r.pending.isOpen <;> cases houter : r.outer <;> simp [settle]

end Reader

/-- The items of a text spell the text. -/
theorem textOf_ofChars? {cs : List Char} {items : List Item} (h : Item.ofChars? cs = some items) :
    textOf items = cs := by
  obtain ⟨r, hrun, hfinish⟩ := Option.bind_eq_some_iff.mp h
  obtain ⟨hopen, houter, rfl⟩ := Reader.finish_eq_some_iff.mp hfinish
  have hwritten : r.written = [] ++ cs := Reader.written_run hrun
  rw [textOf_append, Pending.textOf_items hopen, ← List.nil_append cs, ← hwritten, Reader.written,
    houter]
  rfl

/-- Only the empty text has no items. -/
theorem ofChars?_eq_nil_iff {cs : List Char} {items : List Item}
    (h : Item.ofChars? cs = some items) : items = [] ↔ cs = [] := by
  constructor
  · rintro rfl
    exact (textOf_ofChars? h).symm
  · rintro rfl
    cases h
    rfl

end DescriptorSql.Sql
