import DescriptorSql.Proofs.Lexical.Value

/-!
# `Proofs/Lexical/PassThrough.lean` — text that passes through

Placeholders and the null keywords are written as they are. `PassesThrough` lists them as they are
documented, and the recognisers take exactly those (`passesThrough_iff`). Apart from `${…}`, which
may hold anything but a closing brace, none of them has a character that could end a literal,
separate two values, or begin a comment (`isHarmless_of_passesThrough`).
-/

set_option autoImplicit false

namespace DescriptorSql.Sql

open CharClass (isWord)

/-- The texts that are written as they are. -/
inductive PassesThrough : List Char → Prop
  | question : PassesThrough ['?']
  | questions : PassesThrough ['?', '?']
  | colon (name : List Char) (colons : Nat) : name ≠ [] → (∀ c ∈ name, isWord c = true) →
      colons ≤ 2 → PassesThrough (':' :: (name ++ List.replicate colons ':'))
  | brace (body : List Char) : '\x7d' ∉ body → PassesThrough ('$' :: '\x7b' :: (body ++ ['\x7d']))
  | dollar (name : List Char) : name ≠ [] → (∀ c ∈ name, isWord c = true) →
      PassesThrough ('$' :: name)
  | null (word : List Char) : spells ['N', 'U', 'L', 'L'] word = true → PassesThrough word
  | notNull (first blanks last : List Char) : spells ['N', 'O', 'T'] first = true → blanks ≠ [] →
      (∀ c ∈ blanks, Text.isBlank c = true) → spells ['N', 'U', 'L', 'L'] last = true →
      PassesThrough (first ++ (blanks ++ last))

/-- The text is a `${…}`. -/
def IsBraceText (cs : List Char) : Prop :=
  ∃ body, '\x7d' ∉ body ∧ cs = '$' :: '\x7b' :: (body ++ ['\x7d'])

/-- Characters that mean something in a statement, in a list of values or in a text that is
bound. -/
def signs : List Char := ['\'', '"', ';', ',', '(', ')', '\\', '-', '/', '\x7b', '@']

/-- Nothing in the text ends a literal, separates two values, or begins a comment. -/
structure IsHarmless (cs : List Char) : Prop where
  not_mem : ∀ c ∈ ['\'', '"', ';', ',', '(', ')', '\\'], c ∉ cs
  no_line_comment : ¬ ['-', '-'] <:+: cs
  no_block_comment : ¬ ['/', '*'] <:+: cs

/-! ## The recognisers -/

/-- A colon ends a name, which the next lemmas make use of. -/
theorem isWord_colon : isWord ':' = false := by decide +kernel

/-- A name goes as far as its characters do. -/
theorem takeWhile_name {p : Char → Bool} {name rest : List Char} (hname : ∀ c ∈ name, p c = true)
    (hrest : ∀ c ∈ rest.head?, p c = false) : (name ++ rest).takeWhile p = name := by
  rw [List.takeWhile_append_of_pos hname]
  cases rest with
  | nil => simp
  | cons c rest => simp [hrest c rfl]

theorem dropWhile_name {p : Char → Bool} {name rest : List Char} (hname : ∀ c ∈ name, p c = true)
    (hrest : ∀ c ∈ rest.head?, p c = false) : (name ++ rest).dropWhile p = rest := by
  rw [List.dropWhile_append_of_pos hname]
  cases rest with
  | nil => rfl
  | cons c rest => simp [hrest c rfl]

/-- A colon and a name, with at most two colons behind it. -/
theorem isColonPlaceholder_iff {cs : List Char} :
    isColonPlaceholder cs = true ↔ ∃ name colons, name ≠ [] ∧ (∀ c ∈ name, isWord c = true) ∧
      colons ≤ 2 ∧ cs = ':' :: (name ++ List.replicate colons ':') := by
  constructor
  · intro h
    unfold isColonPlaceholder at h
    split at h
    · next rest =>
      simp only [Bool.and_eq_true, Bool.or_eq_true, decide_eq_true_eq, Bool.not_eq_true',
        List.isEmpty_eq_false_iff] at h
      obtain ⟨hne, hafter⟩ := h
      have hsplit := List.takeWhile_append_dropWhile (p := isWord) (l := rest)
      refine ⟨rest.takeWhile isWord, (rest.dropWhile isWord).length, hne,
        fun c hc => List.mem_takeWhile_imp hc, ?_, ?_⟩
      · rcases hafter with (hafter | hafter) | hafter <;> simp [hafter]
      · rcases hafter with (hafter | hafter) | hafter <;>
          · rw [hafter] at hsplit ⊢
            simpa using hsplit.symm
    · cases h
  · rintro ⟨name, colons, hne, hname, hle, rfl⟩
    have hhead : ∀ c ∈ (List.replicate colons ':').head?, isWord c = false := by
      intro c hc
      rw [(List.mem_replicate.mp (List.mem_of_mem_head? hc)).2, isWord_colon]
    rw [isColonPlaceholder, takeWhile_name hname hhead, dropWhile_name hname hhead]
    have hcolons : colons = 0 ∨ colons = 1 ∨ colons = 2 := by omega
    rcases hcolons with rfl | rfl | rfl <;> simpa using hne

/-- Everything up to the first closing brace, which has to be the last character. -/
theorem isBracePlaceholder_iff {cs : List Char} :
    isBracePlaceholder cs = true ↔ IsBraceText cs := by
  constructor
  · intro h
    unfold isBracePlaceholder at h
    split at h
    · next rest =>
      have hsplit := List.takeWhile_append_dropWhile (p := (· != '\x7d')) (l := rest)
      rw [decide_eq_true_eq] at h
      rw [h] at hsplit
      refine ⟨rest.takeWhile (· != '\x7d'), fun hmem => ?_, by rw [hsplit]⟩
      simpa using List.mem_takeWhile_imp hmem
    · cases h
  · rintro ⟨body, hbody, rfl⟩
    rw [isBracePlaceholder, dropWhile_name]
    · simp
    · rintro c hc
      simp only [bne_iff_ne]
      rintro rfl
      exact hbody hc
    · simp

/-- A dollar sign and a name, numbers among them. -/
theorem isDollarPlaceholder_iff {cs : List Char} :
    isDollarPlaceholder cs = true ↔
      ∃ name, name ≠ [] ∧ (∀ c ∈ name, isWord c = true) ∧ cs = '$' :: name := by
  constructor
  · intro h
    unfold isDollarPlaceholder at h
    split at h
    · next name => exact ⟨name, by simpa using h⟩
    · cases h
  · rintro ⟨name, hne, hname, rfl⟩
    simpa [isDollarPlaceholder, hne] using hname

theorem isBlank_eq_false_of_spells {upper cs : List Char} (hupper : ∀ c ∈ upper, c.isAlpha = true)
    (h : spells upper cs = true) : ∀ c ∈ cs, Text.isBlank c = false := by
  intro c hc
  have halpha := isAlpha_of_spells hupper h c hc
  exact isBlank_eq_false_of_isWordPart
    (isWordPart_of_isAlphanum (by simp [Char.isAlphanum, halpha]))

/-- NULL and NOT NULL in any case, with any blanks between the two words. -/
theorem isNullKeyword_iff {cs : List Char} :
    isNullKeyword cs = true ↔ spells ['N', 'U', 'L', 'L'] cs = true ∨
      ∃ first blanks last, spells ['N', 'O', 'T'] first = true ∧ blanks ≠ [] ∧
        (∀ c ∈ blanks, Text.isBlank c = true) ∧ spells ['N', 'U', 'L', 'L'] last = true ∧
        cs = first ++ (blanks ++ last) := by
  rw [isNullKeyword, Bool.or_eq_true, isNullWord, Bool.and_eq_true]
  refine or_congr_right ⟨?_, ?_⟩
  · rintro ⟨hnot, hrest⟩
    split at hrest
    · cases hrest
    · next c rest hdrop =>
      rw [Bool.and_eq_true, isNullWord] at hrest
      refine ⟨cs.take 3, c :: rest.takeWhile Text.isBlank, rest.dropWhile Text.isBlank, hnot,
        by simp, List.forall_mem_cons.mpr ⟨hrest.1, fun d hd => List.mem_takeWhile_imp hd⟩,
        hrest.2, ?_⟩
      rw [List.cons_append, List.takeWhile_append_dropWhile, ← hdrop, List.take_append_drop]
  · rintro ⟨first, blanks, last, hnot, hne, hblanks, hnull, rfl⟩
    have hlength : first.length = 3 := by
      rw [spells, decide_eq_true_eq] at hnot
      simpa using congrArg List.length hnot
    obtain ⟨c, more, rfl⟩ := List.exists_cons_of_ne_nil hne
    have hlast := isBlank_eq_false_of_spells (List.all_eq_true.mp (by decide)) hnull
    have hdrop : (more ++ last).dropWhile Text.isBlank = last :=
      dropWhile_name (fun d hd => hblanks d (List.mem_cons_of_mem c hd))
        fun d hd => hlast d (List.mem_of_mem_head? hd)
    rw [List.take_left' hlength, List.drop_left' hlength]
    refine ⟨hnot, ?_⟩
    show (Text.isBlank c && isNullWord ((more ++ last).dropWhile Text.isBlank)) = true
    rw [hblanks c List.mem_cons_self, hdrop]
    exact hnull

/-- The recognisers take the texts that are documented to pass through, and no others. -/
theorem passesThrough_iff {cs : List Char} : PassesThrough cs ↔ isVerbatimText cs = true := by
  simp only [isVerbatimText, isPlaceholder, Bool.or_eq_true, isColonPlaceholder_iff,
    isBracePlaceholder_iff, isDollarPlaceholder_iff, isNullKeyword_iff, isQuestionPlaceholder,
    decide_eq_true_eq]
  constructor
  · intro h
    cases h with
    | question => exact Or.inl (Or.inl (Or.inl (Or.inl (Or.inl rfl))))
    | questions => exact Or.inl (Or.inl (Or.inl (Or.inl (Or.inr rfl))))
    | colon name colons hne hname hle =>
      exact Or.inl (Or.inl (Or.inl (Or.inr ⟨name, colons, hne, hname, hle, rfl⟩)))
    | brace body hbody => exact Or.inl (Or.inl (Or.inr ⟨body, hbody, rfl⟩))
    | dollar name hne hname => exact Or.inl (Or.inr ⟨name, hne, hname, rfl⟩)
    | null word hnull => exact Or.inr (Or.inl hnull)
    | notNull first blanks last hnot hne hblanks hnull =>
      exact Or.inr (Or.inr ⟨first, blanks, last, hnot, hne, hblanks, hnull, rfl⟩)
  · rintro (((((rfl | rfl) | ⟨name, colons, hne, hname, hle, rfl⟩) | ⟨body, hbody, rfl⟩) |
      ⟨name, hne, hname, rfl⟩) | (hnull | ⟨first, blanks, last, hnot, hne, hblanks, hnull, rfl⟩))
    · exact .question
    · exact .questions
    · exact .colon name colons hne hname hle
    · exact .brace body hbody
    · exact .dollar name hne hname
    · exact .null cs hnull
    · exact .notNull first blanks last hnot hne hblanks hnull

/-! ## Texts that pass through and their characters -/

/-- A class of characters that excludes every sign is looked up once for each. -/
theorem not_mem_signs {p : Char → Bool} (hp : signs.all (fun d => !p d) = true) {c : Char}
    (hc : p c = true) : c ∉ signs := by
  intro hmem
  simpa [hc] using List.all_eq_true.mp hp c hmem

theorem not_mem_signs_of_isWord {c : Char} (hc : isWord c = true) : c ∉ signs :=
  not_mem_signs (by decide +kernel) hc

theorem not_mem_signs_of_isAlpha {c : Char} (hc : c.isAlpha = true) : c ∉ signs :=
  not_mem_signs (by decide) hc

theorem not_mem_signs_of_isBlank {c : Char} (hc : Text.isBlank c = true) : c ∉ signs :=
  not_mem_signs (by decide) hc

/-- What passes through holds no sign, unless it is a `${…}`. -/
theorem not_mem_signs_of_passesThrough {cs : List Char} (h : PassesThrough cs)
    (hbrace : ¬ IsBraceText cs) : ∀ c ∈ cs, c ∉ signs := by
  intro c hc
  cases h with
  | question | questions =>
    obtain rfl : c = '?' := by simpa using hc
    simp [signs]
  | colon name colons hne hname hle =>
    rcases List.mem_cons.mp hc with rfl | hc
    · simp [signs]
    rcases List.mem_append.mp hc with hc | hc
    · exact not_mem_signs_of_isWord (hname c hc)
    · rw [(List.mem_replicate.mp hc).2]
      simp [signs]
  | brace body hbody => exact absurd ⟨body, hbody, rfl⟩ hbrace
  | dollar name hne hname =>
    rcases List.mem_cons.mp hc with rfl | hc
    · simp [signs]
    · exact not_mem_signs_of_isWord (hname c hc)
  | null word hnull =>
    exact not_mem_signs_of_isAlpha
      (isAlpha_of_spells (List.all_eq_true.mp (by decide)) hnull c hc)
  | notNull first blanks last hnot hne hblanks hnull =>
    rcases List.mem_append.mp hc with hc | hc
    · exact not_mem_signs_of_isAlpha (isAlpha_of_spells (List.all_eq_true.mp (by decide)) hnot c hc)
    rcases List.mem_append.mp hc with hc | hc
    · exact not_mem_signs_of_isBlank (hblanks c hc)
    · exact not_mem_signs_of_isAlpha
        (isAlpha_of_spells (List.all_eq_true.mp (by decide)) hnull c hc)

/-- Without signs nothing in the text is harmful, and the two signs that begin a comment are among
them. -/
theorem isHarmless_of_not_mem_signs {cs : List Char} (h : ∀ c ∈ cs, c ∉ signs) : IsHarmless cs := by
  refine ⟨?_, ?_, ?_⟩
  · intro c hc hmem
    refine h c hmem ?_
    simp only [signs, List.mem_cons, List.not_mem_nil, or_false] at hc ⊢
    tauto
  · intro hinfix
    exact h '-' ( hinfix.subset (by simp)) (by simp [signs])
  · intro hinfix
    exact h '/' ( hinfix.subset (by simp)) (by simp [signs])

/-- So all that passes through is harmless, but for `${…}`. -/
theorem isHarmless_of_passesThrough {cs : List Char} (h : PassesThrough cs)
    (hbrace : ¬ IsBraceText cs) : IsHarmless cs :=
  isHarmless_of_not_mem_signs (not_mem_signs_of_passesThrough h hbrace)

end DescriptorSql.Sql
