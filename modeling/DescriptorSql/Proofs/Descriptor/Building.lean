import DescriptorSql.Descriptor.Builder
import DescriptorSql.Proofs.Descriptor.Keys
import DescriptorSql.Proofs.Descriptor.Parsing

/-!
# `Proofs/Descriptor/Building.lean` — predicates that are built step by step

A predicate that is written as JSON can be built as well: each entry is a row of steps
(`BuildStep`), which are taken one after the other from the empty predicate on (`Predicate.replay`).
A map of operators is a step for each operator, and an existence test one for each relation; these
find the entry that the step before them has left and write into it. The result is the predicate
that is read (`Predicate.replay_eq`), unless a map is empty: it has no step, so nothing of it is
left.
-/

set_option autoImplicit false

namespace DescriptorSql

open Entries (IsMap)

/-! ## Steps -/

/-- One call that builds a predicate. -/
inductive BuildStep where
  | equals (field : String) (value : Json)
  | compare (field : String) (operator : Operator) (operand : Operand)
  | anyOf (branches : List Predicate)
  | allOf (branches : List Predicate)
  | negate (inner : Predicate)
  | hasRow (relation : String) (body : ExistsBody)

def BuildStep.apply (built : Predicate) : BuildStep → Predicate
  | equals field value => built.equals field value
  | compare field operator operand => built.compare field operator operand
  | anyOf branches => built.anyOf branches
  | allOf branches => built.allOf branches
  | negate inner => built.negate inner
  | hasRow relation body => built.hasRow relation body

/-- The predicate after some steps. -/
def Predicate.build (start : Predicate) (steps : List BuildStep) : Predicate :=
  steps.foldl BuildStep.apply start

mutual

/-- The steps of an entry. Operands and bodies of existence tests are read, and what stands in a
group is built. -/
def entrySteps? (key : String) (value : Json) : Option (List BuildStep) :=
  match EntryKey.ofText key, value with
  | .anyOf, .array items => (replayItems items).map fun branches => [.anyOf branches]
  | .allOf, .array items => (replayItems items).map fun branches => [.allOf branches]
  | .negation, .object members => (replayMembers members .empty).map fun inner => [.negate inner]
  | .existence, .object members =>
    (members.mapM readExistsEntry).toOption.map
      (·.map fun (relation, body) => .hasRow relation body)
  | .column, .object members =>
    (members.mapM readComparison).toOption.map
      (·.map fun (operator, operand) => .compare key operator operand)
  | .column, value => some [.equals key value]
  | _, _ => none

/-- The predicate with the entries built in order. -/
def replayMembers : List (String × Json) → Predicate → Option Predicate
  | [], built => some built
  | (key, value) :: rest, built => do
    let steps ← entrySteps? key value
    replayMembers rest (built.build steps)

def replayItems : List Json → Option (List Predicate)
  | [] => some []
  | .object members :: rest => do
    let branch ← replayMembers members .empty
    let branches ← replayItems rest
    return branch :: branches
  | _ :: _ => none

end

/-- Builds the predicate that an object writes. -/
def Predicate.replay : Json → Option Predicate
  | .object members => replayMembers members .empty
  | _ => none

mutual

/-- No map of operators or relations is empty, in the groups neither. -/
def membersAreFull : List (String × Json) → Bool
  | [] => true
  | (key, value) :: rest => entryIsFull key value && membersAreFull rest

def entryIsFull (key : String) (value : Json) : Bool :=
  match EntryKey.ofText key, value with
  | .anyOf, .array items | .allOf, .array items => itemsAreFull items
  | .negation, .object members => membersAreFull members
  | .existence, .object members | .column, .object members => !members.isEmpty
  | _, _ => true

def itemsAreFull : List Json → Bool
  | [] => true
  | .object members :: rest => membersAreFull members && itemsAreFull rest
  | _ :: rest => itemsAreFull rest

end

/-- No map of operators or relations in the predicate is empty. -/
def Json.isFullPredicate : Json → Bool
  | .object members => membersAreFull members
  | _ => true

/-! ## One entry -/

/-- One call writes a part of an entry: the first of them opens the entry, the others go into it. -/
structure Accumulates {κ ν : Type} [DecidableEq κ] (add : Predicate → κ × ν → Predicate)
    (field : String) (make : Entries κ ν → Condition) : Prop where
  first (built : Predicate) (part : κ × ν) : built.get? field = none →
    add built part = built.insert field (make [part])
  next (built : Predicate) (part : κ × ν) (parts : Entries κ ν) :
    built.get? field = some (make parts) →
    add built part = built.insert field (make (Entries.insert parts part.1 part.2))

theorem accumulates_compare (field : String) :
    Accumulates (fun built part => built.compare field part.1 part.2) field .comparisons where
  first built part h := by rw [Predicate.compare, h]
  next built part parts h := by rw [Predicate.compare, h]

theorem accumulates_hasRow :
    Accumulates (fun built part => built.hasRow part.1 part.2) "exists" .existence where
  first built part h := by rw [Predicate.hasRow, h]
  next built part parts h := by rw [Predicate.hasRow, h]

namespace Predicate

variable {built : Predicate} {field : String}

/-- The predicate with another entry at its end. -/
def extend (built : Predicate) (field : String) (condition : Condition) : Predicate :=
  .ofEntries (built.entries ++ [(field, condition)])

theorem insert_eq_extend (h : field ∉ Entries.keys built.entries) (condition : Condition) :
    built.insert field condition = built.extend field condition := by
  rw [insert, Entries.insert_of_not_mem h, extend]

theorem get?_extend (h : field ∉ Entries.keys built.entries) (condition : Condition) :
    (built.extend field condition).get? field = some condition :=
  Entries.get?_append_last h condition

theorem insert_extend (h : field ∉ Entries.keys built.entries) (condition other : Condition) :
    (built.extend field condition).insert field other = built.extend field other :=
  congrArg Predicate.ofEntries (Entries.insert_append_last h condition other)

end Predicate

namespace Accumulates

variable {κ ν : Type} [DecidableEq κ] {add : Predicate → κ × ν → Predicate} {field : String}
  {make : Entries κ ν → Condition} {built : Predicate}

/-- Each call finds the entry that the calls before it have left at the end. -/
theorem foldl_extend (hadd : Accumulates add field make)
    (hfield : field ∉ Entries.keys built.entries) (done parts : Entries κ ν)
    (hparts : IsMap (done ++ parts)) :
    parts.foldl add (built.extend field (make done)) =
      built.extend field (make (done ++ parts)) := by
  induction parts generalizing done with
  | nil => rw [List.foldl_nil, List.append_nil]
  | cons part rest ih =>
    have hsplit : done ++ part :: rest = done ++ [part] ++ rest := by simp
    have hnew : part.1 ∉ Entries.keys done := by
      intro hmem
      rw [IsMap, Entries.keys, List.map_append, List.nodup_append] at hparts
      exact hparts.2.2 part.1 hmem part.1 List.mem_cons_self rfl
    rw [List.foldl_cons, hadd.next _ part done (Predicate.get?_extend hfield _),
      Predicate.insert_extend hfield, Entries.insert_of_not_mem hnew, hsplit]
    exact ih _ (hsplit ▸ hparts)

/-- The calls together write the whole entry. -/
theorem foldl_eq (hadd : Accumulates add field make) (hfield : field ∉ Entries.keys built.entries)
    {parts : Entries κ ν} (hne : parts ≠ []) (hparts : IsMap parts) :
    parts.foldl add built = built.extend field (make parts) := by
  cases parts with
  | nil => exact absurd rfl hne
  | cons part rest =>
    rw [List.foldl_cons, hadd.first built part (Entries.get?_eq_none_iff.mpr hfield),
      Predicate.insert_eq_extend hfield]
    exact hadd.foldl_extend hfield [part] rest hparts

end Accumulates

/-- The word that the key is, unless it names a column. -/
def EntryKey.word? : EntryKey → Option String
  | .anyOf => some "OR"
  | .allOf => some "AND"
  | .negation => some "NOT"
  | .existence => some "exists"
  | .column => none

theorem EntryKey.eq_of_word? {key word : String} (h : (ofText key).word? = some word) :
    key = word := by
  unfold ofText at h
  split at h <;> cases h <;> rfl

theorem names_of_readComparisons {members : List (String × Json)}
    {operators : Entries Operator Operand} (h : members.mapM readComparison = .ok operators) :
    operators.map (fun entry => entry.1.name) = members.map Prod.fst := by
  refine map_of_mapM_eq_ok (fun member entry hentry => ?_) h
  rw [readComparison] at hentry
  split at hentry
  · cases hentry
  · next hname =>
    obtain ⟨operand, -, rfl⟩ := exists_of_map_eq_ok hentry
    exact Operator.name_eq_of_ofName? hname

/-- No two names are the same operator. -/
theorem isMap_of_names {members : List (String × Json)} {operators : Entries Operator Operand}
    (hnames : operators.map (fun entry => entry.1.name) = members.map Prod.fst)
    (hmembers : IsMap members) :
    IsMap operators := by
  refine List.Nodup.of_map Operator.name ?_
  rw [Entries.keys, List.map_map]
  exact hnames ▸ hmembers

theorem keys_of_readExistence {members : List (String × Json)} {tests : Entries String ExistsBody}
    (h : members.mapM readExistsEntry = .ok tests) : Entries.keys tests = Entries.keys members := by
  refine map_of_mapM_eq_ok (fun member entry hentry => ?_) h
  unfold readExistsEntry at hentry
  split at hentry
  · cases hentry
    rfl
  · obtain ⟨query, -, rfl⟩ := exists_of_map_eq_ok hentry
    rfl
  · cases hentry

/-! ## All entries -/

/-- What the steps of an entry do to a predicate without its key. -/
def Replays (key : String) (value : Json) : Prop :=
  ∀ built : Predicate, key ∉ Entries.keys built.entries →
    (entrySteps? key value).map built.build =
      (readCondition key value).toOption.map (built.extend key)

/-- What is not read has no steps. -/
theorem Replays.ofError {key : String} {value : Json} {error : QueryError}
    (hsteps : entrySteps? key value = none) (hcondition : readCondition key value = .error error) :
    Replays key value := by
  intro built _
  rw [hsteps, hcondition]
  rfl

/-- A group is one step, which writes what stands in it under the key's word. -/
theorem Replays.ofGroup {key : String} {value : Json} {β : Type} (step : β → BuildStep)
    (make : β → Condition) {word : String} (hword : (EntryKey.ofText key).word? = some word)
    (hstep : ∀ built content, (step content).apply built = built.insert word (make content))
    {content? : Option β} {read : Except QueryError β}
    (hsteps : entrySteps? key value = content?.map ([step ·]))
    (hcondition : readCondition key value = make <$> read) (hread : content? = read.toOption) :
    Replays key value := by
  intro built hnew
  obtain rfl := EntryKey.eq_of_word? hword
  rw [hsteps, hcondition, hread]
  cases read with
  | error error => rfl
  | ok content =>
    show some ((step content).apply built) = some (built.extend key (make content))
    rw [hstep, Predicate.insert_eq_extend hnew]

/-- A map is a step for each of its parts, which needs at least one of them and none under two
keys. -/
theorem Replays.ofParts {key : String} {value : Json} {κ ν : Type} [DecidableEq κ]
    {add : Predicate → κ × ν → Predicate} {make : Entries κ ν → Condition}
    (hadd : Accumulates add key make) (step : κ × ν → BuildStep)
    (hstep : ∀ built part, (step part).apply built = add built part)
    (read : Except QueryError (Entries κ ν))
    (hsteps : entrySteps? key value = read.toOption.map (·.map step))
    (hcondition : readCondition key value = make <$> read)
    (hparts : ∀ parts, read = .ok parts → parts ≠ [] ∧ IsMap parts) : Replays key value := by
  intro built hnew
  rw [hsteps, hcondition]
  cases read with
  | error error => rfl
  | ok parts =>
    obtain ⟨hne, hmap⟩ := hparts parts rfl
    show some ((parts.map step).foldl BuildStep.apply built) = some (built.extend key (make parts))
    rw [List.foldl_map, funext fun built => funext (hstep built), hadd.foldl_eq hnew hne hmap]

theorem ne_nil_of_map_eq {α β γ : Type} {kept : β → γ} {of : α → γ} {results : List β}
    {items : List α} (h : results.map kept = items.map of) (hne : items ≠ []) : results ≠ [] := by
  rintro rfl
  exact hne (List.map_eq_nil_iff.mp h.symm)

/-- An entry is replayed if what stands in its groups is. -/
theorem replays_entry {key : String} {value : Json} (hfull : entryIsFull key value = true)
    (hdistinct : value.hasDistinctKeys = true)
    (hitems : ∀ items, value = .array items → itemsAreFull items = true →
      replayItems items = (readBranches items).toOption)
    (hmembers : ∀ members, value = .object members → membersAreFull members = true →
      replayMembers members .empty = (Predicate.ofEntries <$> readEntries members).toOption) :
    Replays key value := by
  unfold entryIsFull at hfull
  have hsteps := entrySteps?.eq_def key value
  have hread := readCondition.eq_def key value
  cases hkey : EntryKey.ofText key with
  | anyOf =>
    rw [hkey] at hfull hsteps hread
    cases value with
    | array items =>
      exact .ofGroup .anyOf .anyOf (congrArg EntryKey.word? hkey) (fun _ _ => rfl) hsteps hread
        (hitems items rfl hfull)
    | _ => exact .ofError hsteps hread
  | allOf =>
    rw [hkey] at hfull hsteps hread
    cases value with
    | array items =>
      exact .ofGroup .allOf .allOf (congrArg EntryKey.word? hkey) (fun _ _ => rfl) hsteps hread
        (hitems items rfl hfull)
    | _ => exact .ofError hsteps hread
  | negation =>
    rw [hkey] at hfull hsteps hread
    cases value with
    | object members =>
      have hinner : readCondition key (.object members) =
          Condition.negation <$> Predicate.ofEntries <$> readEntries members :=
        hread.trans (comp_map _ _ _)
      exact .ofGroup .negate .negation (congrArg EntryKey.word? hkey) (fun _ _ => rfl) hsteps hinner
        (hmembers members rfl hfull)
    | _ => exact .ofError hsteps hread
  | existence =>
    obtain rfl : key = "exists" := EntryKey.eq_of_word? (congrArg EntryKey.word? hkey)
    rw [hkey] at hfull hsteps hread
    cases value with
    | object members =>
      refine .ofParts accumulates_hasRow (fun part => .hasRow part.1 part.2) (fun _ _ => rfl)
        (members.mapM readExistsEntry) hsteps (readExistence_eq_mapM members ▸ hread)
          fun parts hparts => ?_
      have hnames := keys_of_readExistence hparts
      refine ⟨ne_nil_of_map_eq hnames (by simpa using hfull), ?_⟩
      rw [IsMap, hnames]
      exact (Json.hasDistinctKeys_object.mp hdistinct).1
    | _ => exact .ofError hsteps hread
  | column =>
    rw [hkey] at hfull hsteps hread
    cases value with
    | object members =>
      refine .ofParts (accumulates_compare key) (fun part => .compare key part.1 part.2)
        (fun _ _ => rfl)
        (members.mapM readComparison) hsteps (readComparisons_eq_mapM members ▸ hread)
          fun parts hparts => ?_
      have hnames := names_of_readComparisons hparts
      exact ⟨ne_nil_of_map_eq hnames (by simpa using hfull),
        isMap_of_names hnames (Json.hasDistinctKeys_object.mp hdistinct).1⟩
    | _ =>
      -- a literal is one step, and reading it cannot fail
      intro built hnew
      rw [hsteps, hread]
      exact congrArg some (Predicate.insert_eq_extend hnew _)

mutual

/-- The members are built onto a predicate that has none of their keys, so each of them goes to its
end. -/
theorem replayMembers_eq (members : List (String × Json)) (built : Predicate)
    (hfull : membersAreFull members = true)
    (hdistinct : (Json.object members).hasDistinctKeys = true)
    (hnew : ∀ key ∈ Entries.keys members, key ∉ Entries.keys built.entries) :
    replayMembers members built =
      (readEntries members).toOption.map fun entries => .ofEntries (built.entries ++ entries) := by
  match members with
  | [] =>
    obtain ⟨entries⟩ := built
    rw [replayMembers, readEntries]
    exact congrArg (some ∘ Predicate.ofEntries) (List.append_nil entries).symm
  | (key, value) :: rest =>
    rw [membersAreFull, Bool.and_eq_true] at hfull
    obtain ⟨hkeys, hvalues⟩ := Json.hasDistinctKeys_object.mp hdistinct
    obtain ⟨hkey, hrestKeys⟩ :=
      List.nodup_cons.mp (show (key :: Entries.keys rest).Nodup from hkeys)
    obtain ⟨hvalue, hrestValues⟩ := List.forall_mem_cons.mp hvalues
    have hentry : Replays key value := by
      refine replays_entry hfull.1 hvalue (fun items heq hitems => ?_) fun members heq hmembers =>
        ?_
      · exact replayItems_eq items hitems (heq ▸ hvalue)
      · rw [replayMembers_eq members .empty hmembers (heq ▸ hvalue) fun _ _ => List.not_mem_nil]
        cases readEntries members <;> rfl
    replace hentry := hentry built (hnew key List.mem_cons_self)
    rw [replayMembers, readEntries]
    cases hcondition : readCondition key value with
    | error error =>
      rw [hcondition] at hentry
      rw [Option.map_eq_none_iff.mp hentry]
      rfl
    | ok condition =>
      rw [hcondition] at hentry
      obtain ⟨steps, hsteps, hbuilt⟩ := Option.map_eq_some_iff.mp hentry
      -- the rest is built onto a predicate that has one key more, which none of them has
      have hrestNew : ∀ other ∈ Entries.keys rest,
          other ∉ Entries.keys (built.extend key condition).entries := by
        intro other hother hmem
        rw [Predicate.extend, Predicate.entries, Entries.keys, List.map_append,
          List.mem_append] at hmem
        rcases hmem with hmem | hmem
        · exact hnew other (List.mem_cons_of_mem _ hother) hmem
        · have heq : other = key := List.mem_singleton.mp hmem
          exact hkey (heq ▸ hother)
      have hrest := replayMembers_eq rest (built.extend key condition) hfull.2
        (Json.hasDistinctKeys_object.mpr ⟨hrestKeys, hrestValues⟩) hrestNew
      rw [hsteps]
      show replayMembers rest (built.build steps) = _
      rw [hbuilt, hrest]
      cases readEntries rest with
      | error error => rfl
      | ok entries =>
        show some (Predicate.ofEntries (built.entries ++ [(key, condition)] ++ entries)) =
          some (.ofEntries (built.entries ++ (key, condition) :: entries))
        rw [List.append_assoc, List.singleton_append]

theorem replayItems_eq (items : List Json) (hfull : itemsAreFull items = true)
    (hdistinct : (Json.array items).hasDistinctKeys = true) :
    replayItems items = (readBranches items).toOption := by
  cases items with
  | nil =>
    rw [replayItems, readBranches]
    rfl
  | cons item rest =>
    obtain ⟨hitem, hrest⟩ := List.forall_mem_cons.mp (Json.hasDistinctKeys_array.mp hdistinct)
    cases item with
    | object members =>
      rw [itemsAreFull, Bool.and_eq_true] at hfull
      have hbranch := replayMembers_eq members .empty hfull.1 hitem fun _ _ => List.not_mem_nil
      have hbranches := replayItems_eq rest hfull.2 (Json.hasDistinctKeys_array.mpr hrest)
      rw [replayItems, readBranches, hbranch, hbranches]
      cases readEntries members <;> cases readBranches rest <;> rfl
    | _ => rfl

end

theorem replayMembers_eq_build (members : List (String × Json)) (built : Predicate) :
    replayMembers members built = (members.mapM fun member => entrySteps? member.1 member.2).map
      fun steps : List (List BuildStep) => built.build steps.flatten := by
  induction members generalizing built with
  | nil => rfl
  | cons member rest ih =>
    obtain ⟨key, value⟩ := member
    rw [replayMembers, List.mapM_cons]
    cases hsteps : entrySteps? key value with
    | none => rfl
    | some steps =>
      show replayMembers rest (built.build steps) = _
      rw [ih]
      cases rest.mapM fun member => entrySteps? member.1 member.2 with
      | none => rfl
      | some others => exact congrArg some (List.foldl_append (f := BuildStep.apply)).symm

namespace Predicate

/-- What is built is what is read, if there is something to build in every map. -/
theorem replay_eq {json : Json} (hfull : json.isFullPredicate = true)
    (hdistinct : json.hasDistinctKeys = true) :
    replay json = (ofJson? json).toOption := by
  cases json with
  | object members =>
    rw [replay, ofJson?, replayMembers_eq members .empty hfull hdistinct fun _ _ =>
      List.not_mem_nil]
    cases readEntries members <;> rfl
  | _ => rfl

/-- A predicate that is read is built by the steps of its entries, one after the other from the
empty one on: the same predicate, with its keys and operators in the same order. That no key stands
twice is so of every value that is read from a text (`Json.hasDistinctKeys_of_read?`). -/
theorem replay_of_ofJson? {json : Json} {predicate : Predicate}
    (hread : ofJson? json = .ok predicate) (hfull : json.isFullPredicate = true)
    (hdistinct : json.hasDistinctKeys = true) :
    replay json = some predicate ∧
      ∃ members steps, json = .object members ∧
        (members.mapM fun member => entrySteps? member.1 member.2) = some steps ∧
        Predicate.empty.build steps.flatten = predicate := by
  have hreplay : replay json = some predicate := by
    rw [replay_eq hfull hdistinct, hread]
    rfl
  refine ⟨hreplay, ?_⟩
  cases json with
  | object members =>
    rw [replay, replayMembers_eq_build] at hreplay
    obtain ⟨steps, hsteps, hbuilt⟩ := Option.map_eq_some_iff.mp hreplay
    exact ⟨members, steps, rfl, hsteps, hbuilt⟩
  | _ => cases hread

/-- A map without operators is read as one, and nothing is left of it where it is built. -/
example : (ofJson? (.object [("age", .object [])])).toOption.map Predicate.size = some 1 ∧
    (replay (.object [("age", .object [])])).map Predicate.size = some 0 := ⟨rfl, rfl⟩

end Predicate

/-- Adults whose name is one of two, or is not known, with two kinds of rows. -/
def builtJson : Json :=
  .object
    [("age", .object [("greaterThan", .number (.int 17)), ("notIn", .array [.number (.int 99)])]),
    ("OR", .array [.object [("name", .string "Ann")], .object [("NOT", .object [("name", .object
      [("notEquals", .null)])])]]),
    ("exists",
      .object [("order", .bool true), ("address", .object [("table", .string "addresses")])])]

def builtPredicate : Predicate :=
  .ofEntries [("age", .comparisons [(.greaterThan, .value (.number (.int 17))),
      (.notIn, .list [.number (.int 99)])]),
    ("OR", .anyOf [.ofEntries [("name", .equals (.string "Ann"))],
      .ofEntries
        [("NOT", .negation (.ofEntries [("name", .comparisons [(.notEquals, .value .null)])]))]]),
    ("exists",
      .existence [("order", .anyRow), ("address", .rowsOf ⟨some "addresses", QueryBody.empty⟩)])]

theorem replay_builtJson :
    (Predicate.ofJson? builtJson = .ok builtPredicate ∧ builtJson.isFullPredicate = true ∧
      builtJson.hasDistinctKeys = true) ∧
    Predicate.replay builtJson = some builtPredicate := by
  have hread : Predicate.ofJson? builtJson = .ok builtPredicate := rfl
  have hfull : builtJson.isFullPredicate = true := by decide
  have hdistinct : builtJson.hasDistinctKeys = true := by decide
  exact ⟨⟨hread, hfull, hdistinct⟩, (Predicate.replay_of_ofJson? hread hfull hdistinct).1⟩

end DescriptorSql
