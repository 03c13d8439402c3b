import DescriptorSql.Proofs.Reading.Terms
import DescriptorSql.Proofs.Statement.Data
import DescriptorSql.Proofs.Statement.Restriction
import DescriptorSql.Sql.Update

/-!
# `Proofs/Statement/Filters.lean` — conditions added one after the other

An UPDATE or a DELETE takes conditions as texts, and joins each to the ones before by AND, without
parentheses. Texts that were compiled behind an AND say the same behind one another as each on its
own, so that every one of them narrows the statement. A text compiled behind an OR has several
terms, and a condition next to it binds the nearest of them alone
(`Modification.readWhere_filtered`); the statement may then change rows that the added condition
excludes (`filteredBy_widens`).
-/

set_option autoImplicit false

namespace DescriptorSql

open Sql (Alike Chunk Grade StaysInClause isPlainName items? readCondition? readWhere? serialize)

/-! ## Statements -/

/-- An UPDATE or a DELETE that no condition has been added to yet. -/
inductive Modification where
  | update (table : String) (assigned : Entries String Json) (returning : List String)
  | delete (table : String) (returning : List String)

namespace Modification

/-- The statement after the conditions were added in this order. -/
def filtered : Modification → List String → String
  | update table assigned returning, conditions =>
    (conditions.foldl Sql.Update.addFilter ⟨table, assigned, none, returning⟩).toSql
  | delete table returning, conditions =>
    (conditions.foldl Sql.Delete.addFilter ⟨table, none, returning⟩).toSql

/-- The names and values that the statement writes. -/
def written : Modification → List Written
  | update table assigned returning =>
    .name table :: (assigned.flatMap fun (column, value) => [.name column, .value value]) ++
      returning.map .name
  | delete table returning => .name table :: returning.map .name

def head : Modification → String
  | update table assigned _ =>
    "UPDATE " ++ Sql.identifier table ++ " SET " ++ serialize (Sql.assignments assigned)
  | delete table _ => "DELETE FROM " ++ Sql.identifier table

def returning : Modification → List String
  | update _ _ returning | delete _ returning => returning

/-- The clauses of the statement with a condition. -/
def clauses (statement : Modification) (filter : Option String) : Sql.Clauses :=
  { head := statement.head, filter := filter, returning := statement.returning }

end Modification

/-! ## The text of the statement -/

/-- The condition after one more was added. -/
def addCondition (filter : Option String) (condition : String) : Option String :=
  some (Sql.andFilter filter condition)

/-- All that adding conditions changes in a statement is its condition. -/
theorem Modification.filtered_eq (statement : Modification) (conditions : List String) :
    statement.filtered conditions =
      (statement.clauses (conditions.foldl addCondition none)).toSql {} := by
  -- a condition that is added goes into the one field that holds conditions, in either statement
  cases statement with
  | update table assigned returning =>
    have hfold : conditions.foldl Sql.Update.addFilter ⟨table, assigned, none, returning⟩ =
        ⟨table, assigned, conditions.foldl addCondition none, returning⟩ :=
      List.foldl_hom (Sql.Update.mk table assigned · returning) fun _ _ => rfl
    rw [filtered, hfold, clauses, head,
      ← Sql.update_head table assigned (conditions.foldl addCondition none) returning]
    rfl
  | delete table returning =>
    have hfold : conditions.foldl Sql.Delete.addFilter ⟨table, none, returning⟩ =
        ⟨table, conditions.foldl addCondition none, returning⟩ :=
      List.foldl_hom (Sql.Delete.mk table · returning) fun _ _ => rfl
    rw [filtered, hfold, clauses, head,
      ← Sql.delete_head table (conditions.foldl addCondition none) returning]
    rfl

theorem forall_mem_present (filter : Option String) :
    ∀ text ∈ (Sql.present filter).toList, text ≠ "" := by
  rw [Sql.toList_present]
  intro text htext
  simpa using (List.mem_filter.mp htext).2

theorem andFilter_eq (filter : Option String) (condition : String) :
    Sql.andFilter filter condition =
      Connective.and.join ((Sql.present filter).toList ++ [condition].filter (!·.isEmpty)) := by
  rw [Sql.andFilter]
  by_cases hempty : condition = ""
  · rw [hempty, List.filter_cons_of_neg (by simp), List.filter_nil, List.append_nil]
    cases Sql.present filter with
    | none => rfl
    | some own => exact (Connective.and.join_singleton own).symm
  · rw [List.filter_cons_of_pos (by simpa using hempty), List.filter_nil]
    cases Sql.present filter with
    | none => exact (Connective.and.join_singleton condition).symm
    | some own =>
      have hjoin : Connective.and.join [own, condition] = own ++ " AND " ++ condition := by
        rw [Connective.join_cons _ _ (by simp), Connective.join_singleton]
        rfl
      refine Eq.trans ?_ hjoin.symm
      exact if_neg (by simpa using hempty)

/-- Texts that are joined already stand in a phrase as each of them would. -/
theorem phrase_present_join (lead : String) {shown : List String} (h : ∀ text ∈ shown, text ≠ "")
    (rest : List String) :
    Sql.phrase lead " AND " ((Sql.present (some (Connective.and.join shown))).toList ++ rest) =
      Sql.phrase lead " AND " (shown ++ rest) := by
  by_cases hshown : shown = []
  · rw [hshown]
    rfl
  · rw [Sql.Clauses.present_eq (Connective.and.join_ne_empty hshown h),
      Option.toList_some, Sql.phrase,
      Sql.phrase, if_neg (by simp), if_neg (by simp [hshown])]
    refine congrArg (lead ++ ·) ?_
    show Connective.and.join ([Connective.and.join shown] ++ rest) =
        Connective.and.join (shown ++ rest)
    by_cases hrest : rest = []
    · rw [hrest, List.append_nil, List.append_nil, Connective.join_singleton]
    · rw [Connective.join_append _ (by simp) hrest, Connective.join_append _ hshown hrest,
        Connective.join_singleton]

/-- The conditions that are not empty stand behind one another in the WHERE clause. -/
theorem phrase_foldl_addCondition (conditions : List String) (filter : Option String) :
    Sql.phrase " WHERE " " AND " (Sql.present (conditions.foldl addCondition filter)).toList =
      Sql.phrase " WHERE " " AND "
        ((Sql.present filter).toList ++ conditions.filter (!·.isEmpty)) := by
  induction conditions generalizing filter with
  | nil => rw [List.foldl_nil, List.filter_nil, List.append_nil]
  | cons condition rest ih =>
    have hshown : ∀ text ∈ (Sql.present filter).toList ++ [condition].filter (!·.isEmpty),
        text ≠ "" := by
      refine List.forall_mem_append.mpr ⟨forall_mem_present filter, fun text htext => ?_⟩
      simpa using (List.mem_filter.mp htext).2
    rw [List.foldl_cons, ih, addCondition, andFilter_eq, phrase_present_join " WHERE " hshown,
      List.append_assoc, ← List.filter_append, List.singleton_append]

/-! ## Reading the condition -/

namespace Modification

variable {statement : Modification}

theorem alike_head (hplain : AllPlain statement.written) :
    Alike .inert statement.head statement.head := by
  cases statement with
  | update table assigned returning =>
    obtain ⟨hset, -⟩ := allPlain_append.mp hplain
    obtain ⟨htable, hassigned⟩ := allPlain_cons.mp hset
    have hupdate := (Sql.alike_identifier htable).behind
      (show Grade.inert.accepts "UPDATE " = true by decide) (by decide)
    exact hupdate.glue
      (alike_assignments (alikeMembers_withoutData hassigned) (plain_columns hassigned)).right
      (by decide)
  | delete table returning =>
    exact (Sql.alike_identifier (allPlain_cons.mp hplain).1).behind
      (show Grade.inert.accepts "DELETE FROM " = true by decide) (by decide)

theorem plain_returning (hplain : AllPlain statement.written) :
    ∀ name ∈ statement.returning, isPlainName name = true := by
  intro name hname
  have hmem : Written.name name ∈ statement.written := by
    cases statement with
    | update table assigned returning => exact List.mem_append_right _ (List.mem_map_of_mem hname)
    | delete table returning => exact List.mem_cons_of_mem _ (List.mem_map_of_mem hname)
  exact hplain _ hmem

/-- A head and the columns to return have no condition. -/
theorem readWhere?_returning {head : String} (hhead : Alike .inert head head) {names : List String}
    (hnames : ∀ name ∈ names, isPlainName name = true) :
    readWhere? (Text.trim (head ++ serialize (Sql.namesClause .returning names))) = none := by
  have hinert : ∀ {items : List Sql.Item}, Grade.inert.Allows items →
      ∀ item ∈ items, item.isKeyword "WHERE" = false :=
    fun hallows item hitem => hallows.isKeyword_eq_false hitem (by decide)
  obtain ⟨hs, hitems, hallows⟩ := hhead.items
  obtain ⟨items, hall, hwhere⟩ : ∃ items,
      items? (head ++ serialize (Sql.namesClause .returning names)) = some items ∧
        ∀ item ∈ items, item.isKeyword "WHERE" = false := by
    unfold Sql.namesClause
    split
    · exact ⟨hs, by rwa [Sql.serialize_nil, String.append_empty], hinert hallows⟩
    · obtain ⟨ns, hns, hallows'⟩ := (@Sql.alike_nameList .inert names hnames).items
      have hreturning : items? " RETURNING " =
          some [.blank ' ', .word "RETURNING".toList, .blank ' '] := rfl
      have htext : serialize (Sql.spaced [.keyword .returning] ++ .space :: Sql.nameList names) =
          " RETURNING " ++ serialize (Sql.nameList names) := by
        rw [← String.toList_inj]
        simp [Sql.spaced, Sql.Token.text, Sql.Keyword.text]
      rw [htext, ← String.append_assoc]
      refine ⟨_, Sql.items?_glue hitems hns hreturning (by decide), ?_⟩
      simp only [List.mem_append, or_imp, forall_and]
      exact ⟨hinert hallows, by decide, hinert hallows'⟩
  refine Sql.readWhere?_eq_none (Sql.items?_trim hall) fun item hitem => hwhere item ?_
  exact (List.dropWhile_sublist _).subset (Sql.dropTrailingBlanks_subset _ hitem)

/-- The conditions that are not empty, with AND between them, are the condition that is read. -/
theorem readWhere?_filtered (hplain : AllPlain statement.written) {conditions : List String}
    (hstays : StaysInClause (Connective.and.join (conditions.filter (!·.isEmpty)))) :
    readWhere? (statement.filtered conditions) =
      readCondition? (Connective.and.join (conditions.filter (!·.isEmpty))) := by
  have hhead := alike_head hplain
  have hreturning := plain_returning hplain
  have hphrase : Sql.phrase " WHERE " " AND "
        (Sql.present (conditions.foldl addCondition none)).toList =
      Sql.phrase " WHERE " " AND " (conditions.filter (!·.isEmpty)) :=
    phrase_foldl_addCondition conditions none
  rw [filtered_eq]
  by_cases hshown : conditions.filter (!·.isEmpty) = []
  · -- without a condition there is no WHERE clause
    have hnil : Sql.phrase " WHERE " " AND " [] = "" := rfl
    rw [clauses, Sql.toSql_returning, hphrase, hshown, hnil, String.append_empty]
    exact readWhere?_returning hhead hreturning
  · have htext :
        serialize ((statement.clauses (conditions.foldl addCondition none)).filterTokens {}) =
        " WHERE " ++ Connective.and.join (conditions.filter (!·.isEmpty)) := by
      have happend : (Sql.present (none : Option String)).toList = [] := rfl
      rw [Sql.Clauses.serialize_filterTokens, happend, List.append_nil]
      refine hphrase.trans ?_
      rw [Sql.phrase, if_neg (by simpa using hshown)]
      rfl
    have hclauses : (statement.clauses (conditions.foldl addCondition none)).IsPlain :=
      .ofReturning rfl rfl rfl rfl hreturning
    have hbare : Sql.present (Sql.Append.join {}) = none := rfl
    apply Sql.Clauses.readWhere?_toSql _ .nil .none hclauses hbare htext hstays
    exact hhead

end Modification

/-! ## Rendered predicates -/

/-- A plain predicate with its text behind a connective. -/
structure RenderedFilter (catalog : Catalog) where
  predicate : Predicate
  connective : Connective
  text : String
  rendered : predicate.toSql catalog connective = .ok text
  plain : AllPlain (Harvest.written.predicate predicate)

namespace RenderedFilter

variable {catalog : Catalog}

/-- The terms of the text: one behind an AND, one for each formula of the predicate behind an OR. -/
def terms (filter : RenderedFilter catalog) : List (List (Formula Atom)) :=
  filter.connective.terms (entryFormulas filter.predicate.entries)

/-- What the text says on its own. -/
def read? (filter : RenderedFilter catalog) : Option (Formula String) := readCondition? filter.text

theorem alternates (hcatalog : AllPlain catalog.written) (filter : RenderedFilter catalog) :
    Alternates catalog filter.text filter.terms := by
  obtain ⟨clauses, hclauses, htext⟩ := exists_of_map_eq_ok filter.rendered
  rw [← htext]
  exact .ofClauses filter.connective (means_entryClauses hcatalog filter.plain hclauses)

end RenderedFilter

/-- The texts that are not empty. -/
def shownTexts {catalog : Catalog} (filters : List (RenderedFilter catalog)) : List String :=
  (filters.map (·.text)).filter (!·.isEmpty)

/-- No text of several terms has another text next to it. -/
def KeptApart {catalog : Catalog} (filters : List (RenderedFilter catalog)) : Prop :=
  (∀ filter ∈ filters, filter.terms.length ≤ 1) ∨ (shownTexts filters).length ≤ 1

/-- The statement changes the rows of which its condition is true, and all rows if it has none. -/
def Affects (sql : String) (valuation : String → Truth) : Prop :=
  ∀ read ∈ readWhere? sql, read.eval valuation = .yes

instance (sql : String) (valuation : String → Truth) : Decidable (Affects sql valuation) :=
  inferInstanceAs (Decidable (∀ read ∈ readWhere? sql, read.eval valuation = .yes))

/-- The statement after the texts were added in this order. -/
def Modification.filteredBy {catalog : Catalog} (statement : Modification)
    (filters : List (RenderedFilter catalog)) : String := statement.filtered (filters.map (·.text))

section

variable {catalog : Catalog} {filters kept : List (RenderedFilter catalog)}
  {statement : Modification}

theorem KeptApart.sublist (h : KeptApart filters) (hkept : kept.Sublist filters) :
    KeptApart kept := by
  rcases h with hterms | hshown
  · exact Or.inl fun filter hfilter => hterms filter (hkept.subset hfilter)
  · exact Or.inr (Nat.le_trans ((hkept.map _).filter _).length_le hshown)

theorem filterMap_read (filters : List (RenderedFilter catalog)) :
    filters.filterMap RenderedFilter.read? = (shownTexts filters).filterMap readCondition? := by
  have hempty : readCondition? "" = none := rfl
  induction filters with
  | nil => rfl
  | cons filter rest ih =>
    rw [shownTexts, List.map_cons, List.filterMap_cons, ih]
    by_cases htext : filter.text = ""
    · rw [List.filter_cons_of_neg (by simp [htext]), RenderedFilter.read?, htext,
        hempty, shownTexts]
    · rw [List.filter_cons_of_pos (by simpa using htext), List.filterMap_cons, RenderedFilter.read?,
        shownTexts]

theorem alternates_shownTexts (hcatalog : AllPlain catalog.written)
    (filters : List (RenderedFilter catalog)) :
    Alternates catalog (Connective.and.join (shownTexts filters))
      ((filters.map RenderedFilter.terms).foldr splice []) := by
  apply Alternates.join
  exact Sql.forall₂_map (List.forall₂_same.mpr fun filter _ => filter.alternates hcatalog)

/-- The WHERE clause is read as the texts with AND between them. -/
theorem readWhere?_filteredBy (hcatalog : AllPlain catalog.written)
    (hplain : AllPlain statement.written) (filters : List (RenderedFilter catalog)) :
    readWhere? (statement.filteredBy filters) =
      readCondition? (Connective.and.join (shownTexts filters)) := by
  apply statement.readWhere?_filtered hplain
  show StaysInClause (Connective.and.join (shownTexts filters))
  rcases (alternates_shownTexts hcatalog filters).cases with ⟨hempty, -⟩ | ⟨-, hstays, -⟩
  · rw [hempty]
    exact ⟨[], rfl, by simp⟩
  · exact hstays

theorem eval_readWhere (hcatalog : AllPlain catalog.written) (hplain : AllPlain statement.written)
    (hapart : KeptApart filters) (valuation : String → Truth) :
    (readWhere? (statement.filteredBy filters)).map (·.eval valuation) =
      Connective.and.truth? valuation (filters.filterMap RenderedFilter.read?) := by
  rw [readWhere?_filteredBy hcatalog hplain, filterMap_read]
  rcases hapart with hterms | hshown
  · refine eval_read_join (fun text htext => ?_) valuation
    obtain ⟨hmem, hne⟩ := List.mem_filter.mp htext
    obtain ⟨filter, hfilter, rfl⟩ := List.mem_map.mp hmem
    exact (filter.alternates hcatalog).exists_conjoins (by simpa using hne) (hterms filter hfilter)
  · generalize shownTexts filters = texts at hshown
    match texts, hshown with
    | [], _ => rfl
    | [text], _ =>
      rw [Connective.join_singleton, List.filterMap_cons]
      cases readCondition? text <;> rfl

theorem affects_iff (hcatalog : AllPlain catalog.written) (hplain : AllPlain statement.written)
    (hapart : KeptApart filters) (valuation : String → Truth) :
    Affects (statement.filteredBy filters) valuation ↔
      ∀ read ∈ filters.filterMap RenderedFilter.read?, read.eval valuation = .yes := by
  rw [← Connective.forall_truth?_and_iff, ← eval_readWhere hcatalog hplain hapart, Affects]
  cases readWhere? (statement.filteredBy filters) <;> simp

/-- The condition of the statement says the alternation that the texts make with AND between them.
If no text of several terms has another next to it, that is what all of them say, and more texts
mean fewer rows. -/
theorem Modification.readWhere_filtered (hcatalog : AllPlain catalog.written)
    (hplain : AllPlain statement.written) (filters : List (RenderedFilter catalog)) :
    Option.Rel (Denotes catalog) (readWhere? (statement.filteredBy filters))
        (chainTerms ((filters.map RenderedFilter.terms).foldr splice [])) ∧
      (∀ filter ∈ filters, filter.read? = none ↔ filter.text = "") ∧
      (KeptApart filters →
        (∀ valuation, (readWhere? (statement.filteredBy filters)).map (·.eval valuation) =
          Connective.and.truth? valuation (filters.filterMap RenderedFilter.read?)) ∧
        ∀ kept, kept.Sublist filters → ∀ valuation,
          Affects (statement.filteredBy filters) valuation →
            Affects (statement.filteredBy kept) valuation) := by
  refine ⟨?_, fun filter _ => ?_, fun hapart => ⟨eval_readWhere hcatalog hplain hapart, ?_⟩⟩
  · rw [readWhere?_filteredBy hcatalog hplain]
    exact (alternates_shownTexts hcatalog filters).denotes
  · rcases (filter.alternates hcatalog).cases with ⟨hempty, -⟩ | ⟨hne, -, read, _, hread, -⟩
    · rw [RenderedFilter.read?, hempty]
      exact iff_of_true rfl rfl
    · rw [RenderedFilter.read?, hread]
      exact iff_of_false (by simp) hne
  · intro kept hkept valuation haffects
    rw [affects_iff hcatalog hplain hapart] at haffects
    rw [affects_iff hcatalog hplain (hapart.sublist hkept)]
    exact fun read hread => haffects read ((hkept.filterMap _).subset hread)

end

/-- The sessions of one user. -/
def ownerFilter : RenderedFilter [] where
  predicate := .ofEntries [("user_id", .equals (Json.ofNat 7))]
  connective := .and
  text := "\"user_id\" = 7"
  rendered := eq_ok_of_toOption (by decide +kernel)
  plain := by decide

/-- A group without branches. -/
def silentFilter : RenderedFilter [] where
  predicate := .ofEntries [("OR", .anyOf [])]
  connective := .or
  text := ""
  rendered := eq_ok_of_toOption (by decide +kernel)
  plain := by decide

/-- The sessions that have ended, one way or the other. -/
def endedFilter : RenderedFilter [] where
  predicate := .ofEntries [("expired", .equals (.bool true)), ("revoked", .equals (.bool true))]
  connective := .or
  text := "\"expired\" = true OR \"revoked\" = true"
  rendered := eq_ok_of_toOption (by decide +kernel)
  plain := by decide

/-- The same sessions as a group, which is put in parentheses. -/
def endedGroup : RenderedFilter [] where
  predicate := .ofEntries [("OR", .anyOf [endedFilter.predicate])]
  connective := .and
  text := "(\"expired\" = true OR \"revoked\" = true)"
  rendered := eq_ok_of_toOption (by decide +kernel)
  plain := by decide

def deleteSessions : Modification := .delete "sessions" ["id"]

def groupFilters : List (RenderedFilter []) := [ownerFilter, silentFilter, endedGroup]

theorem readWhere_groupFilters :
    (AllPlain (Catalog.written []) ∧ AllPlain deleteSessions.written ∧ KeptApart groupFilters) ∧
      Option.Rel (Denotes []) (readWhere? (deleteSessions.filteredBy groupFilters))
        (chainTerms ((groupFilters.map RenderedFilter.terms).foldr splice [])) ∧
      (∀ filter ∈ groupFilters, filter.read? = none ↔ filter.text = "") ∧
      (∀ valuation, (readWhere? (deleteSessions.filteredBy groupFilters)).map (·.eval valuation) =
        Connective.and.truth? valuation (groupFilters.filterMap RenderedFilter.read?)) ∧
      ∀ kept, kept.Sublist groupFilters → ∀ valuation,
        Affects (deleteSessions.filteredBy groupFilters) valuation →
          Affects (deleteSessions.filteredBy kept) valuation := by
  have hcatalog : AllPlain (Catalog.written []) := by decide
  have hplain : AllPlain deleteSessions.written := by decide
  have hapart : KeptApart groupFilters := Or.inl (by decide)
  obtain ⟨hdenotes, hread, hkept⟩ := Modification.readWhere_filtered hcatalog hplain groupFilters
  exact ⟨⟨hcatalog, hplain, hapart⟩, hdenotes, hread, hkept hapart⟩

/-- A revoked session of another user is deleted only after the second filter was added. -/
theorem filteredBy_widens :
    ∃ valuation : String → Truth,
      ¬ Affects (deleteSessions.filteredBy [ownerFilter]) valuation ∧
        Affects (deleteSessions.filteredBy [ownerFilter, endedFilter]) valuation ∧
        Connective.and.truth? valuation
          ([ownerFilter, endedFilter].filterMap RenderedFilter.read?) =
          some .no :=
  ⟨fun atom => if atom = "\"revoked\" = true" then .yes else .no, by decide +kernel⟩

end DescriptorSql
