import DescriptorSql.Proofs.Lexical.PassThrough

/-!
# `Proofs/Lexical/Literal.lean` — values stay in their literals

A literal ends at its closing quote, and where that is depends on the reader: for one, a quote that
is written twice is the only escape, for the other a backslash is an escape as well (`EscapeRule`).
Both read a quoted text as one literal that ends with it, and the second reads the text itself
(`readBody_escapeChars`). A list of values is read as its values between commas and parentheses, to
any depth (`lexemes_literal`).
-/

set_option autoImplicit false

namespace DescriptorSql

namespace Sql

/-! ## Reading a literal -/

/-- What is an escape in a literal: a quote written twice, or a backslash as well. -/
inductive EscapeRule where
  | quotes
  | backslashes
  deriving DecidableEq, Repr

/-- Puts a character in front of a text that was read. -/
def consText (c : Char) (result : Option (List Char × List Char)) :
    Option (List Char × List Char) :=
  result.map fun (text, after) => (c :: text, after)

theorem consText_eq_some {c : Char} {result : Option (List Char × List Char)}
    {text after : List Char} :
    consText c result = some (text, after) ↔ ∃ more, text = c :: more ∧
      result = some (more, after) := by
  rcases result with _ | ⟨more, rest⟩
  · simp [consText]
  · simp only [consText, Option.map_some, Option.some.injEq, Prod.mk.injEq]
    constructor
    · rintro ⟨rfl, rfl⟩
      exact ⟨more, rfl, rfl, rfl⟩
    · rintro ⟨_, rfl, rfl, rfl⟩
      exact ⟨rfl, rfl⟩

/-- Reads a literal behind its opening quote: the text that it denotes, and what stands behind its
closing quote. -/
def readBody (rule : EscapeRule) : List Char → Option (List Char × List Char)
  | [] => none
  | '\'' :: '\'' :: rest => consText '\'' (readBody rule rest)
  | '\'' :: rest => some ([], rest)
  | '\\' :: c :: rest =>
    if rule = .backslashes then consText c (readBody rule rest)
    else consText '\\' (readBody rule (c :: rest))
  | c :: rest => consText c (readBody rule rest)

/-- Reads a literal: the text that it denotes, and what stands behind it. -/
def readLiteral (rule : EscapeRule) : List Char → Option (List Char × List Char)
  | '\'' :: rest => readBody rule rest
  | _ => none

/-- The text that a literal written with both escapes denotes. -/
def EscapeRule.read : EscapeRule → List Char → List Char
  | quotes, cs => Text.double '\\' cs
  | backslashes, cs => cs

theorem readBody_quote {rule : EscapeRule} {after : List Char} (h : after.head? ≠ some '\'') :
    readBody rule ('\'' :: after) = some ([], after) := by
  rw [readBody]
  rintro rest rfl
  simp at h

theorem readBody_quotes (rule : EscapeRule) (rest : List Char) :
    readBody rule ('\'' :: '\'' :: rest) =
      consText '\'' (readBody rule rest) := by
  rw [readBody]

theorem readBody_backslash (rest : List Char) (c : Char) :
    readBody .backslashes ('\\' :: c :: rest) =
      consText c (readBody .backslashes rest) := by
  rw [readBody, if_pos rfl]

/-- Any other character stands for itself. -/
theorem readBody_cons {rule : EscapeRule} {c : Char} (hquote : c ≠ '\'')
    (hescape : ¬ (c = '\\' ∧ rule = .backslashes)) (rest : List Char) :
    readBody rule (c :: rest) = consText c (readBody rule rest) := by
  by_cases hslash : c = '\\'
  · subst hslash
    cases rest with
    | nil => rfl
    | cons d rest => rw [readBody, if_neg fun hrule => hescape ⟨rfl, hrule⟩]
  · rw [readBody]
    · rintro _ rfl
      exact absurd rfl hquote
    · exact hquote
    · rintro _ _ rfl
      exact absurd rfl hslash

/-- Quotes and backslashes are doubled, each on its own. -/
theorem escapeChars_cons (c : Char) (cs : List Char) :
    escapeChars (c :: cs) =
      (if c = '\\' then ['\\', '\\'] else if c = '\'' then ['\'', '\''] else [c]) ++
        escapeChars cs := by
  rw [escapeChars, escapeChars, Text.double_cons, Text.double_append]
  congr 1
  by_cases hslash : c = '\\'
  · simp [Text.double, hslash]
  · by_cases hquote : c = '\''
    · simp [Text.double, hquote]
    · simp [Text.double, hslash, hquote]

/-- Escaped text is read up to the quote behind it. -/
theorem readBody_escapeChars (rule : EscapeRule) (cs : List Char) {after : List Char}
    (hafter : after.head? ≠ some '\'') :
    readBody rule (escapeChars cs ++ '\'' :: after) = some (rule.read cs, after) := by
  -- character by character, as both the escaping and the reader go
  induction cs with
  | nil =>
    rw [escapeChars, Text.double_nil, Text.double_nil, List.nil_append, readBody_quote hafter]
    cases rule <;> rfl
  | cons c cs ih =>
    rw [escapeChars_cons]
    by_cases hslash : c = '\\'
    · subst hslash
      rw [if_pos rfl, List.append_assoc, List.cons_append, List.cons_append, List.nil_append]
      -- a doubled backslash is two characters for one reader, and one for the other
      cases rule with
      | quotes =>
        rw [readBody_cons (by decide) (by simp), readBody_cons (by decide) (by simp), ih]
        rfl
      | backslashes =>
        rw [readBody_backslash, ih]
        rfl
    · have hread : rule.read (c :: cs) = c :: rule.read cs := by
        cases rule with
        | quotes => simp [EscapeRule.read, Text.double_cons, hslash]
        | backslashes => rfl
      rw [if_neg hslash, hread]
      by_cases hquote : c = '\''
      · subst hquote
        rw [if_pos rfl, List.append_assoc, List.cons_append, List.cons_append, List.nil_append,
          readBody_quotes, ih]
        rfl
      · rw [if_neg hquote, List.append_assoc, List.cons_append, List.nil_append,
          readBody_cons hquote (fun h => hslash h.1), ih]
        rfl

theorem toList_quoteText (s : String) :
    (quoteText s).toList = '\'' :: (escapeChars s.toList ++ ['\'']) := by
  simp [quoteText, escapeText]

/-- Quoted text is one literal. -/
theorem readLiteral_quoteText (rule : EscapeRule) (s : String) :
    readLiteral rule (quoteText s).toList = some (rule.read s.toList, []) := by
  rw [toList_quoteText, readLiteral, readBody_escapeChars rule s.toList (by simp)]

/-! ## Reading a list of values -/

/-- A part of a list of values. -/
inductive Lexeme where
  | opening
  | closing
  | comma
  | literal (text : List Char)
  /-- A `${…}`. -/
  | brace (body : List Char)
  | other (c : Char)
  deriving DecidableEq, Repr

def Lexeme.ofChar : Char → Lexeme
  | '(' => opening
  | ')' => closing
  | ',' => comma
  | c => other c

/-- Reads a `${…}` behind its opening brace. -/
def readBrace : List Char → Option (List Char × List Char)
  | [] => none
  | '\x7d' :: rest => some ([], rest)
  | c :: rest => consText c (readBrace rest)

/-- The reader goes forward, on which the reading of lists rests. -/
theorem length_readBody {rule : EscapeRule} {cs text after : List Char}
    (h : readBody rule cs = some (text, after)) : after.length < cs.length := by
  fun_induction readBody rule cs generalizing text with
  | case1 => cases h
  | case2 rest ih =>
    obtain ⟨more, -, hrest⟩ := consText_eq_some.mp h
    exact Nat.lt_succ_of_lt (Nat.lt_succ_of_lt (ih hrest))
  | case3 rest hno =>
    cases h
    exact Nat.lt_succ_self _
  | case4 c rest hrule ih =>
    obtain ⟨more, -, hrest⟩ := consText_eq_some.mp h
    exact Nat.lt_succ_of_lt (Nat.lt_succ_of_lt (ih hrest))
  | case5 c rest hrule ih =>
    obtain ⟨more, -, hrest⟩ := consText_eq_some.mp h
    exact Nat.lt_succ_of_lt (ih hrest)
  | case6 c rest _ _ _ ih =>
    obtain ⟨more, -, hrest⟩ := consText_eq_some.mp h
    exact Nat.lt_succ_of_lt (ih hrest)

theorem length_readBrace {cs body after : List Char} (h : readBrace cs = some (body, after)) :
    after.length < cs.length := by
  fun_induction readBrace cs generalizing body with
  | case1 => cases h
  | case2 rest =>
    cases h
    exact Nat.lt_succ_self _
  | case3 c rest _ ih =>
    obtain ⟨more, -, hrest⟩ := consText_eq_some.mp h
    exact Nat.lt_succ_of_lt (ih hrest)

/-- Reads a text as lexemes. -/
def lexemes (rule : EscapeRule) : List Char → Option (List Lexeme)
  | [] => some []
  | '\'' :: rest =>
    match h : readBody rule rest with
    | none => none
    | some (text, after) =>
      have : after.length < rest.length := length_readBody h
      (lexemes rule after).map (.literal text :: ·)
  | '$' :: '\x7b' :: rest =>
    match h : readBrace rest with
    | none => none
    | some (body, after) =>
      have : after.length < rest.length := length_readBrace h
      (lexemes rule after).map (.brace body :: ·)
  | c :: rest => (lexemes rule rest).map (Lexeme.ofChar c :: ·)
termination_by cs => cs.length

theorem lexemes_quote {rule : EscapeRule} {rest text after : List Char}
    (h : readBody rule rest = some (text, after)) :
    lexemes rule ('\'' :: rest) = (lexemes rule after).map (.literal text :: ·) := by
  rw [lexemes]
  split
  · next hnone => simp [h] at hnone
  · next text' after' hsome =>
    rw [h] at hsome
    cases hsome
    rfl

theorem lexemes_brace {rule : EscapeRule} {rest body after : List Char}
    (h : readBrace rest = some (body, after)) :
    lexemes rule ('$' :: '\x7b' :: rest) = (lexemes rule after).map (.brace body :: ·) := by
  rw [lexemes]
  split
  · next hnone => simp [h] at hnone
  · next body' after' hsome =>
    rw [h] at hsome
    cases hsome
    rfl

theorem lexemes_other {rule : EscapeRule} {c : Char} {rest : List Char} (hquote : c ≠ '\'')
    (hbrace : ¬ (c = '$' ∧ rest.head? = some '\x7b')) :
    lexemes rule (c :: rest) = (lexemes rule rest).map (Lexeme.ofChar c :: ·) := by
  rw [lexemes]
  · exact hquote
  · rintro rest rfl rfl
    exact hbrace ⟨rfl, rfl⟩

/-! ### Texts in a row -/

/-- What is behind a literal is not looked at, unless it begins with a quote. -/
theorem readBody_append {rule : EscapeRule} {cs bs text after : List Char}
    (h : readBody rule cs = some (text, after)) (hbs : bs.head? ≠ some '\'') :
    readBody rule (cs ++ bs) = some (text, after ++ bs) := by
  -- in each case of the reader, the text behind is put off to the end
  fun_induction readBody rule cs generalizing text with
  | case1 => cases h
  | case2 rest ih =>
    obtain ⟨more, rfl, hrest⟩ := consText_eq_some.mp h
    rw [List.cons_append, List.cons_append, readBody_quotes, ih hrest]
    rfl
  -- here the literal ends, which it would not if a quote followed
  | case3 rest hno =>
    cases h
    rw [List.cons_append]
    refine readBody_quote ?_
    cases after with
    | nil => exact hbs
    | cons c after =>
      rintro ⟨⟩
      exact hno after rfl
  | case4 c rest hrule ih =>
    obtain ⟨more, rfl, hrest⟩ := consText_eq_some.mp h
    subst hrule
    rw [List.cons_append, List.cons_append, readBody_backslash, ih hrest]
    rfl
  | case5 c rest hrule ih =>
    obtain ⟨more, rfl, hrest⟩ := consText_eq_some.mp h
    rw [List.cons_append, readBody_cons (by decide) (fun hescape => hrule hescape.2), ih hrest]
    rfl
  | case6 c rest _ hquote hslash ih =>
    obtain ⟨more, rfl, hrest⟩ := consText_eq_some.mp h
    rw [List.cons_append, readBody_cons hquote, ih hrest]
    · rfl
    · rintro ⟨rfl, -⟩
      cases rest with
      | nil => cases hrest
      | cons d rest => exact hslash d rest rfl rfl

theorem readBrace_append {cs body after : List Char} (h : readBrace cs = some (body, after))
    (bs : List Char) : readBrace (cs ++ bs) = some (body, after ++ bs) := by
  fun_induction readBrace cs generalizing body with
  | case1 => cases h
  | case2 rest =>
    cases h
    rfl
  | case3 c rest hc ih =>
    obtain ⟨more, rfl, hrest⟩ := consText_eq_some.mp h
    rw [List.cons_append, readBrace, ih hrest]
    · rfl
    · exact hc

/-- A text that is read as lexemes is read so in front of another, unless the other goes on with its
last character. -/
theorem lexemes_append {rule : EscapeRule} {as bs : List Char} {part : List Lexeme}
    (h : lexemes rule as = some part) (hquote : bs.head? ≠ some '\'')
    (hbrace : bs.head? ≠ some '\x7b') :
    lexemes rule (as ++ bs) = (lexemes rule bs).map (part ++ ·) := by
  fun_induction lexemes rule as generalizing part with
  | case1 =>
    cases h
    simp
  | case2 => cases h
  | case3 rest text after hbody _ ih =>
    obtain ⟨more, hmore, rfl⟩ := Option.map_eq_some_iff.mp h
    rw [List.cons_append, lexemes_quote (readBody_append hbody hquote), ih hmore, Option.map_map]
    rfl
  | case4 => cases h
  | case5 rest body after hbody _ ih =>
    obtain ⟨more, hmore, rfl⟩ := Option.map_eq_some_iff.mp h
    rw [List.cons_append, List.cons_append, lexemes_brace (readBrace_append hbody bs), ih hmore,
      Option.map_map]
    rfl
  | case6 c rest hc hdollar ih =>
    obtain ⟨more, hmore, rfl⟩ := Option.map_eq_some_iff.mp h
    rw [List.cons_append, lexemes_other hc, ih hmore, Option.map_map]
    · rfl
    · rintro ⟨rfl, hhead⟩
      cases rest with
      | nil => exact hbrace hhead
      | cons d rest =>
        obtain rfl : d = '\x7b' := by simpa using hhead
        exact hdollar rest rfl rfl

/-- A text without quotes, parentheses, commas and braces is its characters. -/
theorem lexemes_others {rule : EscapeRule} {cs : List Char}
    (h : ∀ c ∈ cs, c ∉ ['\'', '(', ')', ',', '\x7b']) : lexemes rule cs = some (cs.map .other) := by
  induction cs with
  | nil => rw [lexemes, List.map_nil]
  | cons c cs ih =>
    have hc := h c List.mem_cons_self
    simp only [List.mem_cons, List.not_mem_nil, or_false, not_or] at hc
    obtain ⟨hquote, hopening, hclosing, hcomma, -⟩ := hc
    have hother : Lexeme.ofChar c = .other c := by
      unfold Lexeme.ofChar
      split <;> first | contradiction | rfl
    rw [lexemes_other hquote, ih fun d hd => h d (List.mem_cons_of_mem c hd), hother]
    · rfl
    · rintro ⟨-, hhead⟩
      exact h '\x7b' (List.mem_cons_of_mem c (List.mem_of_mem_head? hhead)) (by simp)

end Sql

/-! ## Values -/

namespace Json

mutual

/-- The texts among the values of an array, at any depth; an object is one value. -/
def texts : Json → List String
  | .string s => [s]
  | .array items => textsOfItems items
  | _ => []

def textsOfItems : List Json → List String
  | [] => []
  | item :: rest => item.texts ++ textsOfItems rest

end

end Json

namespace Sql

/-- A text as lexemes: SQL as it reads, placeholders and null keywords as they stand, and data as
one literal. -/
def textLexemes (rule : EscapeRule) (s : String) : List Lexeme :=
  match stripRaw? s with
  | some sql => (lexemes rule sql.toList).getD []
  | none =>
    if isBracePlaceholder s.toList then [.brace (s.toList.drop 2).dropLast]
    else if isVerbatimText s.toList then s.toList.map .other
    else [.literal (rule.read s.toList)]

mutual

/-- A value as lexemes: an array is its values with commas between them and parentheses around. -/
def lexemesOf (rule : EscapeRule) : Json → List Lexeme
  | .null => "NULL".toList.map .other
  | .bool b => (boolText b).toList.map .other
  | .number n => (numberText n).toList.map .other
  | .string s => textLexemes rule s
  | .array items =>
    .opening :: ([.comma, .other ' '].intercalate (lexemesOfItems rule items) ++ [.closing])
  | .object members => [.literal (rule.read (Json.object members).compact.toList)]

def lexemesOfItems (rule : EscapeRule) : List Json → List (List Lexeme)
  | [] => []
  | item :: rest => lexemesOf rule item :: lexemesOfItems rule rest

end

/-- Marked texts are read as lexemes. -/
def RawReads (rule : EscapeRule) (texts : List String) : Prop :=
  ∀ s ∈ texts, ∀ sql, stripRaw? s = some sql → (lexemes rule sql.toList).isSome

theorem lexemes_quoteText (rule : EscapeRule) (s : String) :
    lexemes rule (quoteText s).toList = some [.literal (rule.read s.toList)] := by
  rw [toList_quoteText, lexemes_quote (readBody_escapeChars rule s.toList (by simp)), lexemes]
  rfl

theorem readBrace_body {body : List Char} (hbody : '\x7d' ∉ body) :
    readBrace (body ++ ['\x7d']) = some (body, []) := by
  induction body with
  | nil => rfl
  | cons c body ih =>
    rw [List.mem_cons, not_or] at hbody
    rw [List.cons_append, readBrace, ih hbody.2]
    · rfl
    · rintro rfl
      exact hbody.1 rfl

theorem not_mem_of_not_mem_signs {c : Char} (h : c ∉ signs) :
    c ∉ ['\'', '(', ')', ',', '\x7b'] := by
  intro hmem
  simp only [signs, List.mem_cons, List.not_mem_nil, or_false] at h hmem
  tauto

/-- A text is one literal, or stands as it is and is read as that. -/
theorem lexemes_textLiteral {rule : EscapeRule} {s : String} (h : RawReads rule [s]) :
    lexemes rule (textLiteral s).toList = some (textLexemes rule s) := by
  rw [textLiteral, textLexemes]
  cases hraw : stripRaw? s with
  | some sql =>
    obtain ⟨part, hpart⟩ := Option.isSome_iff_exists.mp (h s List.mem_cons_self sql hraw)
    simp [hpart]
  | none =>
    by_cases hbrace : isBracePlaceholder s.toList = true
    · obtain ⟨body, hbody, hs⟩ := isBracePlaceholder_iff.mp hbrace
      have hverbatim : isVerbatimText s.toList = true := by
        simp [isVerbatimText, isPlaceholder, hbrace]
      simp only [hverbatim, hbrace, if_true]
      rw [hs, lexemes_brace (readBrace_body hbody), lexemes]
      simp
    · simp only [hbrace]
      by_cases hverbatim : isVerbatimText s.toList = true
      · simp only [hverbatim, if_true]
        have hsigns := not_mem_signs_of_passesThrough (passesThrough_iff.mpr hverbatim)
          (mt isBracePlaceholder_iff.mpr hbrace)
        exact lexemes_others fun c hc => not_mem_of_not_mem_signs (hsigns c hc)
      · simp only [hverbatim]
        exact lexemes_quoteText rule s

theorem lexemes_letters (rule : EscapeRule) {text : String}
    (h : text.toList.all Char.isAlpha = true) :
    lexemes rule text.toList = some (text.toList.map .other) :=
  lexemes_others fun c hc =>
    not_mem_of_not_mem_signs (not_mem_signs_of_isAlpha (List.all_eq_true.mp h c hc))

theorem lexemes_numberText (rule : EscapeRule) (n : JsonNumber) :
    lexemes rule (numberText n).toList = some ((numberText n).toList.map .other) := by
  refine lexemes_others fun c hc hmem => ?_
  have hmarks : ['\'', '(', ')', ',', '\x7b'].all (fun d => !isNumberPart d) = true := by decide
  simpa [(isNumberWord_numberText n).parts c hc] using List.all_eq_true.mp hmarks c hmem

theorem lexemes_parenthesized {rule : EscapeRule} {cs : List Char} {part : List Lexeme}
    (h : lexemes rule cs = some part) :
    lexemes rule ("(".toList ++ (cs ++ ")".toList)) = some (.opening :: (part ++ [.closing])) := by
  have hclosing : lexemes rule [')'] = some [.closing] := by
    rw [lexemes_other (by decide) (by simp), lexemes]
    rfl
  show lexemes rule ('(' :: (cs ++ [')'])) = _
  rw [lexemes_other (by decide) (by simp), lexemes_append h (by decide) (by decide), hclosing]
  rfl

/-- A comma between two values is a lexeme of its own. -/
theorem lexemes_separated {rule : EscapeRule} {as bs : List Char} {part rest : List Lexeme}
    (has : lexemes rule as = some part) (hbs : lexemes rule bs = some rest) :
    lexemes rule (as ++ (", ".toList ++ bs)) = some (part ++ ([.comma, .other ' '] ++ rest)) := by
  have hseparator : lexemes rule (", ".toList ++ bs) = some (.comma :: .other ' ' :: rest) := by
    show lexemes rule (',' :: ' ' :: bs) = _
    rw [lexemes_other (by decide) (by simp), lexemes_other (by decide) (by simp), hbs]
    rfl
  rw [lexemes_append has (by simp) (by simp), hseparator]
  rfl

mutual

/-- A value is read as its lexemes. -/
theorem lexemes_literal (rule : EscapeRule) (v : Json) (h : RawReads rule v.texts) :
    lexemes rule (literal v).toList = some (lexemesOf rule v) := by
  cases v with
  | null => exact lexemes_letters rule (by decide)
  | bool b => cases b <;> exact lexemes_letters rule (by decide)
  | number n => exact lexemes_numberText rule n
  | string s => exact lexemes_textLiteral h
  | array items =>
    rw [literal, lexemesOf, String.toList_append, String.toList_append, List.append_assoc]
    exact lexemes_parenthesized (lexemes_items rule items h)
  | object members => exact lexemes_quoteText rule _

/-- Values with commas between them are read as their lexemes with commas between them. -/
theorem lexemes_items (rule : EscapeRule) (items : List Json)
    (h : RawReads rule (Json.textsOfItems items)) :
    lexemes rule (", ".intercalate (literals items)).toList =
      some ([.comma, .other ' '].intercalate (lexemesOfItems rule items)) := by
  cases items with
  | nil =>
    rw [literals, lexemesOfItems, String.intercalate_nil, List.intercalate_nil]
    exact lexemes_others (by simp)
  | cons item rest =>
    have hitem := lexemes_literal rule item fun s hs => h s (List.mem_append_left _ hs)
    have hrest := lexemes_items rule rest fun s hs => h s (List.mem_append_right _ hs)
    cases rest with
    | nil => simpa [literals, lexemesOfItems] using hitem
    | cons next rest =>
      rw [literals, literals, lexemesOfItems, lexemesOfItems, String.intercalate_cons_cons,
        List.intercalate_cons_cons, String.toList_append, String.toList_append]
      rw [literals, lexemesOfItems] at hrest
      simpa only [List.append_assoc] using lexemes_separated hitem hrest

end

theorem lexemesOfItems_eq_map (rule : EscapeRule) (items : List Json) :
    lexemesOfItems rule items = items.map (lexemesOf rule) := by
  induction items with
  | nil => rfl
  | cons item rest ih => rw [lexemesOfItems, ih, List.map_cons]

/-- The texts of an array are those of its items. -/
theorem texts_subset_of_mem {item : Json} {items : List Json} (h : item ∈ items) :
    item.texts ⊆ (Json.array items).texts := by
  rw [Json.texts]
  induction items with
  | nil => cases h
  | cons first rest ih =>
    rw [Json.textsOfItems]
    rcases List.mem_cons.mp h with rfl | h
    · exact List.subset_append_left _ _
    · exact List.Subset.trans (ih h) (List.subset_append_right _ _)

/-- A text is written as it is if it is a placeholder or a null keyword, which has nothing in it to
end a literal, to separate values or to begin a comment, a `${…}` excepted; otherwise it is written
as one literal that ends with it, for readers of either kind, and the reader for whom a backslash is
an escape reads the text back. An object is written as one literal in the same way, and an array is
read as its values between commas and parentheses. -/
theorem values_stay_in_literals (rule : EscapeRule) (s : String) (hs : stripRaw? s = none)
    (members : List (String × Json)) (items : List Json)
    (hitems : RawReads rule (Json.array items).texts) :
    ((PassesThrough s.toList →
          textLiteral s = s ∧ (¬ IsBraceText s.toList → IsHarmless s.toList)) ∧
        (¬ PassesThrough s.toList →
          (∃ text, readLiteral .quotes (textLiteral s).toList = some (text, [])) ∧
            readLiteral .backslashes (textLiteral s).toList = some (s.toList, []))) ∧
      ((∃ text, readLiteral .quotes (literal (.object members)).toList = some (text, [])) ∧
        readLiteral .backslashes (literal (.object members)).toList =
          some ((Json.object members).compact.toList, [])) ∧
      lexemes rule (literal (.array items)).toList =
        some (.opening :: ([.comma, .other ' '].intercalate (items.map (lexemesOf rule)) ++
          [.closing])) ∧
      ∀ item ∈ items, lexemes rule (literal item).toList = some (lexemesOf rule item) := by
  refine ⟨⟨fun hpass => ⟨?_, isHarmless_of_passesThrough hpass⟩, fun hdata => ?_⟩, ?_, ?_, ?_⟩
  · simp [textLiteral, hs, passesThrough_iff.mp hpass]
  · have hquoted : textLiteral s = quoteText s := by
      simp [textLiteral, hs, mt passesThrough_iff.mpr hdata]
    rw [hquoted]
    exact ⟨⟨_, readLiteral_quoteText .quotes s⟩, readLiteral_quoteText .backslashes s⟩
  · exact ⟨⟨_, readLiteral_quoteText .quotes _⟩, readLiteral_quoteText .backslashes _⟩
  · rw [lexemes_literal rule _ hitems, lexemesOf, lexemesOfItems_eq_map]
  · intro item hitem
    exact lexemes_literal rule item fun text htext =>
      hitems text (texts_subset_of_mem hitem htext)

theorem lexemes_call (rule : EscapeRule) :
    lexemes rule "now()".toList =
      some [.other 'n', .other 'o', .other 'w', .opening, .closing] := by
  have hcall := lexemes_parenthesized (@lexemes_others rule [] (by simp))
  have hword : lexemes rule "now".toList = some ("now".toList.map .other) :=
    lexemes_letters rule (by decide)
  show lexemes rule ("now".toList ++ ("(".toList ++ ([] ++ ")".toList))) = _
  rw [lexemes_append hword (by decide) (by decide), hcall]
  rfl

/-- Text with a quote and a backslash, and an array with a comma in a text and with SQL. -/
theorem mixedValues_stay_in_literals :
    stripRaw? "it's \\" = none ∧
      readLiteral .backslashes (textLiteral "it's \\").toList = some ("it's \\".toList, []) ∧
      lexemes .quotes (literal (.array [.string "a, b", .string (raw "now()")])).toList =
        some (.opening :: ([.comma, .other ' '].intercalate
          [[.literal "a, b".toList], [.other 'n', .other 'o', .other 'w', .opening, .closing]] ++
            [.closing])) := by
  have hraw : RawReads .quotes (Json.array [.string "a, b", .string (raw "now()")]).texts := by
    intro s hs sql hsql
    have htexts : s = "a, b" ∨ s = raw "now()" := by
      simpa [Json.texts, Json.textsOfItems] using hs
    rcases htexts with rfl | rfl
    · have hnone : stripRaw? "a, b" = none := by decide
      rw [hnone] at hsql
      cases hsql
    · rw [stripRaw?_raw] at hsql
      cases hsql
      rw [lexemes_call]
      rfl
  have hdata : ¬ PassesThrough "it's \\".toList := by
    rw [passesThrough_iff]
    decide +kernel
  have hvalues := values_stay_in_literals .quotes "it's \\" (by decide) [] _ hraw
  have htext : textLexemes .quotes "a, b" = [.literal "a, b".toList] := by decide +kernel
  have hcall : textLexemes .quotes (raw "now()") =
      [.other 'n', .other 'o', .other 'w', .opening, .closing] := by
    rw [textLexemes, stripRaw?_raw]
    exact congrArg (Option.getD · []) (lexemes_call .quotes)
  refine ⟨by decide, (hvalues.1.2 hdata).2, ?_⟩
  rw [hvalues.2.2.1, List.map_cons, List.map_cons, List.map_nil, lexemesOf, lexemesOf, htext, hcall]

end Sql

end DescriptorSql
