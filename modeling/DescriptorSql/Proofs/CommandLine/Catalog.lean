import DescriptorSql.CommandLine.Run
import DescriptorSql.Descriptor.Builder
import DescriptorSql.Proofs.Descriptor.Items
import DescriptorSql.Proofs.Descriptor.Keys
import DescriptorSql.Proofs.Statement.Lookup

/-!
# `Proofs/CommandLine/Catalog.lean` — which relation a name refers to

A command lays the relations of its descriptor over the configured ones, as one predicate is laid
over another: both are maps, and both follow the laws of layers (`layers_predicate_relations`). So a
name refers to the descriptor's relation where the descriptor has one, and to the configured one
otherwise, and this is all that a statement takes from the two catalogs.
-/

set_option autoImplicit false

namespace DescriptorSql

open Entries (IsMap)

theorem ok_of_asInvalid {α : Type} {result : Except Mistake α} {value : α}
    (h : asInvalid result = .ok value) : result = .ok value := by
  cases result with
  | ok other =>
    cases h
    rfl
  | error mistake => cases h

namespace CommandLine

/-! ## Descriptors -/

/-- The parameters of the operation, as the descriptor has them. -/
def Operation.read (descriptor : Json) : Operation → Except QueryError Statement
  | .find => .find <$> asInvalid (FindParams.ofJson? descriptor)
  | .insert false => .insertOne <$> asInvalid (InsertParams.oneOfJson? descriptor)
  | .insert true => .insertMany <$> asInvalid (InsertParams.manyOfJson? descriptor)
  | .update => .update <$> asInvalid (UpdateParams.ofJson? descriptor)
  | .delete => .delete <$> asInvalid (DeleteParams.ofJson? descriptor)

/-- The catalog that a statement of a command refers to. -/
def catalogOf (settings : Settings) (statement : Statement) : Catalog :=
  settings.relationsWith statement.catalog

/-- Every operation lays the catalog of its parameters over the configured one, whatever the
parameters are. -/
theorem Operation.compile_eq (settings : Settings) (descriptor : Json) (operation : Operation) :
    operation.compile settings descriptor = operation.read descriptor >>= fun statement =>
      (statement.withCatalog (catalogOf settings statement)).compile := by
  cases operation with
  | find =>
    rw [compile, read]
    cases asInvalid (FindParams.ofJson? descriptor) <;> rfl
  | insert many =>
    cases many with
    | false =>
      rw [compile, read]
      cases asInvalid (InsertParams.oneOfJson? descriptor) <;> rfl
    | true =>
      rw [compile, read]
      cases asInvalid (InsertParams.manyOfJson? descriptor) <;> rfl
  | update =>
    rw [compile, read]
    cases asInvalid (UpdateParams.ofJson? descriptor) <;> rfl
  | delete =>
    rw [compile, read]
    cases asInvalid (DeleteParams.ofJson? descriptor) <;> rfl

/-- What an operation is read from has distinct keys, and so has its catalog. -/
theorem Operation.isMap_catalog {operation : Operation} {descriptor : Json} {statement : Statement}
    (hdescriptor : descriptor.hasDistinctKeys = true)
    (h : operation.read descriptor = .ok statement) :
    IsMap statement.catalog := by
  cases operation with
  | find =>
    obtain ⟨params, hparams, rfl⟩ := exists_of_map_eq_ok h
    exact FindParams.isMap_relations hdescriptor (ok_of_asInvalid hparams)
  | insert many =>
    cases many <;>
    · obtain ⟨params, hparams, rfl⟩ := exists_of_map_eq_ok h
      exact InsertParams.isMap_relations hdescriptor (ok_of_asInvalid hparams)
  | update =>
    obtain ⟨params, hparams, rfl⟩ := exists_of_map_eq_ok h
    exact UpdateParams.isMap_relations hdescriptor (ok_of_asInvalid hparams)
  | delete =>
    obtain ⟨params, hparams, rfl⟩ := exists_of_map_eq_ok h
    exact DeleteParams.isMap_relations hdescriptor (ok_of_asInvalid hparams)

/-- The reader of files gives objects without repeated keys. -/
theorem hasDistinctKeys_of_readJson {files : Files} {file : String} {descriptor : Json}
    (h : readJson files file = .ok descriptor) : descriptor.hasDistinctKeys = true := by
  obtain ⟨text, -, h⟩ := exists_of_bind_eq_ok h
  cases hread : Json.read? Json.greatestDepth text with
  | none =>
    rw [hread] at h
    cases h
  | some value =>
    rw [hread] at h
    cases h
    exact Json.hasDistinctKeys_of_read? hread

/-! ## Layers -/

/-- Predicates are laid over each other as maps are. -/
theorem laysOver_merge : LaysOver Predicate.entries .empty Predicate.merge :=
  .ofMerge Predicate.ofEntries (fun _ => rfl) fun ⟨_⟩ => rfl

theorem laysOver_relationsWith (output : OutputSettings) :
    LaysOver id [] fun base overlay => Settings.relationsWith ⟨base, output⟩ overlay :=
  .ofMerge id (fun _ => rfl) fun _ => rfl

theorem get?_catalogOf (settings : Settings) {statement : Statement} (h : IsMap statement.catalog)
    (name : String) : Entries.get? (catalogOf settings statement) name =
      (Entries.get? statement.catalog name).or (Entries.get? settings.relations name) :=
  Entries.get?_merge settings.relations statement.catalog h name

/-- A name is resolved by the descriptor's relations first. -/
theorem resolve_catalogOf (settings : Settings) {statement : Statement}
    (h : IsMap statement.catalog) (name : String) : (catalogOf settings statement).resolve name =
      match Entries.get? statement.catalog name with
      | some relation => .ok relation
      | none => settings.relations.resolve name := by
  rw [Catalog.resolve, get?_catalogOf settings h]
  cases Entries.get? statement.catalog name <;> rfl

/-- Predicates and catalogs follow the same laws when one is laid over another. So a command
resolves every name by the relations of its file where they have it, and by the configured ones
otherwise, and its statement is the one of any catalog in which the names that it mentions stand for
these relations. -/
theorem layers_predicate_relations :
    LaysOver Predicate.entries .empty Predicate.merge ∧
    (∀ output, LaysOver id [] fun base overlay => Settings.relationsWith ⟨base, output⟩ overlay) ∧
    ∀ files file descriptor, readJson files file = .ok descriptor →
      ∀ operation statement, Operation.read descriptor operation = .ok statement → ∀ settings,
        operation.compile settings descriptor =
          (statement.withCatalog (catalogOf settings statement)).compile ∧
        (∀ name, (catalogOf settings statement).resolve name =
          match Entries.get? statement.catalog name with
          | some relation => .ok relation
          | none => settings.relations.resolve name) ∧
        ∀ catalog, (∀ mention ∈ statement.mentions, Entries.get? catalog mention.name =
            (Entries.get? statement.catalog mention.name).or
              (Entries.get? settings.relations mention.name)) →
          operation.compile settings descriptor = (statement.withCatalog catalog).compile := by
  refine ⟨laysOver_merge, laysOver_relationsWith, ?_⟩
  intro files file descriptor hfile operation statement hstatement settings
  have hmap := Operation.isMap_catalog (hasDistinctKeys_of_readJson hfile) hstatement
  have hcompile : operation.compile settings descriptor =
      (statement.withCatalog (catalogOf settings statement)).compile := by
    rw [Operation.compile_eq, hstatement]
    rfl
  refine ⟨hcompile, resolve_catalogOf settings hmap, fun catalog hcatalog => ?_⟩
  have hsame : SameLookups statement.mentions (catalogOf settings statement) catalog := by
    intro mention hmention
    rw [get?_catalogOf settings hmap, hcatalog mention hmention]
  rw [hcompile, Statement.compile_congr hsame]

end CommandLine

/-! ## Text without escapes -/

namespace Json

/-- A character that stands for itself in a string. -/
def isVerbatim (c : Char) : Bool := 0x20 ≤ c.toNat && c != '\\' && c != '\x22'

/-- Characters that need no escape are read as they are. -/
theorem stringBody?_verbatim {cs : List Char} (h : cs.all isVerbatim = true) (rest : List Char) :
    stringBody? (cs ++ '\x22' :: rest) = some (cs, rest) := by
  induction cs with
  | nil => rw [List.nil_append, stringBody?]
  | cons c cs ih =>
    rw [List.all_cons, Bool.and_eq_true] at h
    have hc : isVerbatim c = true := h.1
    simp only [isVerbatim, Bool.and_eq_true, bne_iff_ne, decide_eq_true_eq] at hc
    have hchar : stringChar? (c :: (cs ++ '\x22' :: rest)) = some (c, cs ++ '\x22' :: rest) := by
      unfold stringChar?
      split <;> simp_all
    rw [List.cons_append, stringBody?]
    · split
      · next hnone =>
        rw [hchar] at hnone
        cases hnone
      · next hsome =>
        rw [hchar] at hsome
        cases hsome
        rw [ih h.2]
        rfl
    · -- the character is no closing quote
      rintro body heq
      exact hc.2 (List.cons.inj heq).1

/-- The lexeme as it is written without escapes. -/
def Lexeme.written? : Lexeme → Option (List Char)
  | .openArray => some ['[']
  | .closeArray => some [']']
  | .openObject => some ['\x7b']
  | .closeObject => some ['\x7d']
  | .comma => some [',']
  | .colon => some [':']
  | .scalar (.bool true) => some ['t', 'r', 'u', 'e']
  | .scalar (.string text) =>
    if text.toList.all isVerbatim then some ('\x22' :: (text.toList ++ ['\x22'])) else none
  | _ => none

/-- Lexemes that are written one after the other are read as they were. -/
theorem lexemes?_written {lexemes : List Lexeme} {texts : List (List Char)}
    (h : List.Forall₂ (fun lexeme text => lexeme.written? = some text) lexemes texts) :
    lexemes? texts.flatten = some lexemes := by
  -- each lexeme is recognised by its first character
  induction h with
  | nil => rw [List.flatten_nil, lexemes?]
  | @cons lexeme text rest texts hlexeme _ ih =>
    rw [List.flatten_cons]
    cases lexeme with
    | scalar value =>
      cases value with
      | bool value =>
        cases value with
        | true =>
          cases hlexeme
          rw [List.cons_append]
          simp [lexemes?, ih]
        | false => cases hlexeme
      -- a string ends at its quote, since no character of it needs an escape
      | string text =>
        rw [Lexeme.written?] at hlexeme
        split at hlexeme
        · next hv =>
          cases hlexeme
          rw [List.cons_append, List.append_assoc, List.singleton_append, lexemes?]
          split
          · next hnone =>
            rw [stringBody?_verbatim hv] at hnone
            cases hnone
          · next body after hsome =>
            rw [stringBody?_verbatim hv] at hsome
            cases hsome
            rw [ih, String.ofList_toList]
            rfl
        · cases hlexeme
      | _ => cases hlexeme
    | _ =>
      cases hlexeme
      rw [List.singleton_append]
      simp [lexemes?, ih]

end Json

namespace CommandLine

/-! ## A file with relations -/

/-- The albums that have an artist. -/
def artistLexemes : List Json.Lexeme :=
  let name (text : String) : Json.Lexeme := .scalar (.string text)
  [.openObject, name "table", .colon, name "albums", .comma,
    name "query", .colon, .openObject, name "where", .colon, .openObject, name "exists", .colon,
    .openObject,
      name "artist", .colon, .scalar (.bool true), .closeObject, .closeObject, .closeObject, .comma,
    name "relations", .colon, .openObject, name "artist", .colon, .openObject,
      name "table", .colon, name "artists", .comma, name "field", .colon, name "id", .comma,
      name "referenceTable", .colon, name "albums", .comma,
      name "referenceField", .colon, name "artist_id", .closeObject, .closeObject, .closeObject]

def artistFile : String := String.ofList (artistLexemes.filterMap Json.Lexeme.written?).flatten

def artistFiles : Files := fun _ => .ok artistFile

def artistDescriptor : Json :=
  .object [("table", .string "albums"),
    ("query", .object [("where", .object [("exists", .object [("artist", .bool true)])])]),
    ("relations",
      .object [("artist", .object [("table", .string "artists"), ("field", .string "id"),
      ("referenceTable", .string "albums"), ("referenceField", .string "artist_id")])])]

def artistRelation : Relation := ⟨.one, "artists", "id", "albums", "artist_id", none, none⟩

def artistStatement : Statement :=
  .delete ⟨"albums", some (.ofEntries [("exists", .existence [("artist", .anyRow)])]), [],
    [("artist", artistRelation)]⟩

/-- Another artist, and a relation that the file does not have. -/
def configured : Settings where
  relations :=
    [("label", ⟨.one, "labels", "id", "albums", "label_id", none, none⟩),
      ("artist", ⟨.one, "people", "id", "albums", "person_id", none, none⟩)]

theorem readJson_artistFiles : readJson artistFiles "albums.json" = .ok artistDescriptor := by
  have hlexemes : Json.lexemes? artistFile.toList = some artistLexemes := by
    rw [artistFile, String.toList_ofList]
    exact Json.lexemes?_written (by decide)
  have hread : Json.read? Json.greatestDepth artistFile = some artistDescriptor := by
    rw [Json.read?, hlexemes]
    rfl
  simp only [readJson, readText, artistFiles, failing, bind, Except.bind, hread]
  rfl

theorem read_artistDescriptor : Operation.read artistDescriptor .delete = .ok artistStatement := rfl

def labelFilter : Predicate :=
  .ofEntries [("label", .equals (Json.ofNat 1)), ("year", .equals .null)]

def yearFilter : Predicate :=
  .ofEntries [("title", .equals .null), ("year", .equals (Json.ofNat 1990))]

/-- The file's artist goes before the configured one, whose place it takes. -/
theorem layers_artistStatement :
    (readJson artistFiles "albums.json" = .ok artistDescriptor ∧
      Operation.read artistDescriptor .delete = .ok artistStatement) ∧
    (Operation.compile configured artistDescriptor .delete =
        (artistStatement.withCatalog [("artist", artistRelation)]).compile ∧
      (catalogOf configured artistStatement).resolve "artist" = .ok artistRelation ∧
      (catalogOf configured artistStatement).resolve "label" =
        configured.relations.resolve "label" ∧
      Entries.keys (catalogOf configured artistStatement) = ["label", "artist"]) ∧
    (IsMap labelFilter.entries ∧ IsMap yearFilter.entries) ∧
    Entries.keys (labelFilter.merge yearFilter).entries = ["label", "year", "title"] ∧
    (labelFilter.merge yearFilter).merge labelFilter =
      labelFilter.merge (yearFilter.merge labelFilter) ∧
    labelFilter.merge labelFilter = labelFilter := by
  have hlabel : IsMap labelFilter.entries := by decide
  have hyear : IsMap yearFilter.entries := by decide
  obtain ⟨hpredicates, hcatalogs, hcommand⟩ := layers_predicate_relations
  obtain ⟨-, hresolve, hcompile⟩ :=
    hcommand artistFiles "albums.json" artistDescriptor readJson_artistFiles .delete artistStatement
      read_artistDescriptor configured
  refine ⟨⟨readJson_artistFiles, read_artistDescriptor⟩, ⟨hcompile _ (by decide), hresolve "artist",
    hresolve "label", ?_⟩, ⟨hlabel, hyear⟩, ?_, ?_, ?_⟩
  · exact (hcatalogs configured.output).keys_eq configured.relations artistStatement.catalog
      (by decide)
  · exact hpredicates.keys_eq labelFilter yearFilter hyear
  · exact hpredicates.assoc labelFilter yearFilter labelFilter hlabel hyear hlabel
  · exact hpredicates.over_self labelFilter hlabel

end CommandLine

end DescriptorSql
