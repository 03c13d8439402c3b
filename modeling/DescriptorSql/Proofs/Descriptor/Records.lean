import DescriptorSql.Proofs.Descriptor.Items

/-!
# `Proofs/Descriptor/Records.lean` — subqueries and joins are read by the grammar

The records inside a predicate hold predicates again. If those are read by the grammar, so are the
records: a field is faithful because its value is (`faithful_joinField`, `faithful_subQueryField`),
and a record because its fields are (`faithful_join`, `faithful_subQuery`).
-/

set_option autoImplicit false

namespace DescriptorSql

/-- Predicates are read by the grammar on this value. -/
abbrev IsFaithful (value : Json) : Prop :=
  Faithful Predicate.ofJson? PredicateReads PredicateFails value

/-- A filter is a predicate, or nothing at all for null. -/
theorem faithful_filter {value : Json} (h : IsFaithful value) :
    Faithful readFilter FilterReads FilterFails value := by
  by_cases hnull : value = .null
  · subst hnull
    refine .of_ok rfl .null ?_ ?_
    · rintro other (_ | ⟨⟨⟩⟩)
      rfl
    · rintro mistake ⟨hne, -⟩
      exact hne rfl
  · have hread : readFilter value = (some <$> Predicate.ofJson? value).mapError .predicate := by
      cases value with
      | null => exact absurd rfl hnull
      | object members =>
        rw [readFilter, Predicate.ofJson?, asMistake_eq]
        cases readEntries members <;> rfl
      | _ => rfl
    refine .of_map h hread ?_ ?_
    · intro result
      constructor
      · rintro (_ | hpredicate)
        · exact absurd rfl hnull
        · exact ⟨_, hpredicate, rfl⟩
      · rintro ⟨predicate, hpredicate, rfl⟩
        exact .predicate hpredicate
    · intro mistake
      constructor
      · rintro ⟨-, hfails⟩
        exact ⟨_, hfails, rfl⟩
      · rintro ⟨error, hfails, rfl⟩
        exact .predicate hnull hfails

/-- Only the conditions of a join hold predicates. Its columns are read by the grammar whatever they
are. -/
theorem faithful_joinField {name : String} {value : Json} (h : IsFaithful value)
    (join : JoinQuery) :
    Faithful (readJoinField join) (fun field => JoinFieldReads field join) JoinFieldFails
      (name, value) := by
  -- only the field of conditions asks for the reader of predicates
  by_cases hname : name = "where"
  · subst hname
    have hread : readJoinField join ("where", value) =
        ((fun filter => { join with filter := filter }) <$> readFilter value).mapError id := by
      show (do return { join with filter := ← readFilter value }) = _
      cases readFilter value <;> rfl
    refine .of_map (faithful_filter h) hread ?_ ?_
    · intro result
      constructor
      · rintro (⟨hne, -⟩ | ⟨-, hfilter⟩)
        · exact absurd rfl hne
        · exact ⟨_, hfilter, rfl⟩
      · rintro ⟨filter, hfilter, rfl⟩
        exact .filter rfl hfilter
    · intro mistake
      constructor
      · rintro (⟨hne, -⟩ | ⟨-, hfails⟩)
        · exact absurd rfl hne
        · exact ⟨_, hfails, rfl⟩
      · rintro ⟨_, hfails, rfl⟩
        exact .filter rfl hfails
  · -- the grammar reads any other field without it, and the result is the same
    have hread : readJoinField join (name, value) =
        storeJoinField name value (fun _ => .ok none) join :=
      storeJoinField_plain hname value (fun _ => readFilter value) _ join
    cases hstore : storeJoinField name value (fun _ => .ok none) join with
    | ok next =>
      refine .of_ok (hread.trans hstore) (.plain hname hstore) ?_ ?_
      · rintro other (⟨-, hother⟩ | ⟨hwhere, -⟩)
        · exact Except.ok.inj (hother.symm.trans hstore)
        · exact absurd hwhere hname
      · rintro mistake (⟨-, herror⟩ | ⟨hwhere, -⟩)
        · cases (storeJoinField_error herror).symm.trans hstore
        · exact absurd hwhere hname
    | error mistake =>
      refine .of_error (hread.trans hstore) (.plain hname (storeJoinField_error hstore)) ?_ ?_
      · rintro other (⟨-, herror⟩ | ⟨hwhere, -⟩)
        · exact Except.error.inj ((storeJoinField_error herror).symm.trans hstore)
        · exact absurd hwhere hname
      · rintro next (⟨-, hnext⟩ | ⟨hwhere, -⟩)
        · cases hnext.symm.trans hstore
        · exact absurd hwhere hname

/-- What is smaller than the value is read by the grammar. -/
abbrev IsFaithfulBelow (value : Json) : Prop :=
  ∀ inner : Json, sizeOf inner < sizeOf value → IsFaithful inner

/-- Going into a value keeps what is known of everything smaller. -/
theorem IsFaithfulBelow.inside {value inner : Json} (h : IsFaithfulBelow value)
    (hinner : sizeOf inner < sizeOf value) : IsFaithfulBelow inner :=
  fun other hother => h other (Nat.lt_trans hother hinner)

/-- The fields of a join are smaller than the join, so what is known below it is known of them. -/
theorem faithful_join {value : Json} (h : IsFaithfulBelow value) :
    Faithful JoinQuery.ofJson? JoinReads JoinFails value := by
  refine .record readJoinField ?_ ?_ ?_
    (fun name field hfield join => faithful_joinField (h field hfield) join)
  · intro members
    exact eq_foldlM (fun _ => rfl) (fun _ _ _ => rfl) members JoinQuery.empty
  · intro items
    exact eq_foldlM_zip (readJoinItems items.length) (fun names _ => by cases names <;> rfl)
      (fun _ _ _ => rfl) (fun _ _ _ _ _ => rfl) _ items JoinQuery.empty
  · intro other hobject harray
    cases other with
    | object members => exact absurd rfl (hobject members)
    | array items => exact absurd rfl (harray items)
    | _ => rfl

/-- Reading joins one by one says under which name one of them fails. -/
theorem faithful_namedJoin {name : String} {value : Json} (h : IsFaithfulBelow value) :
    Faithful readNamedJoin NamedJoinReads NamedJoinFails (name, value) := by
  refine .of_map (faithful_join h) (f := (name, ·)) (g := id) ?_ ?_ ?_
  · rw [readNamedJoin]
    cases JoinQuery.ofJson? value <;> rfl
  · intro result
    constructor
    · rintro ⟨hjoin⟩
      exact ⟨_, hjoin, rfl⟩
    · rintro ⟨join, hjoin, rfl⟩
      exact .named hjoin
  · intro mistake
    constructor
    · rintro ⟨hfails⟩
      exact ⟨_, hfails, rfl⟩
    · rintro ⟨_, hfails, rfl⟩
      exact .named hfails

section SubQueryFields

variable {name : String} {value : Json} (query : SubQuery)

/-- A field that holds no predicates is stored the same with any reader of predicates. -/
theorem faithful_plainField (hkind : FieldKind.ofName name = .plain) :
    Faithful (readSubQueryField query) (fun field => SubQueryFieldReads field query)
      SubQueryFieldFails (name, value) := by
  -- the readers that are passed are never called, so they may be the trivial ones
  have hread : readSubQueryField query (name, value) =
      storeSubQueryField name value (fun _ => .ok none) (fun _ => .ok []) query :=
    storeSubQueryField_plain hkind value (fun _ => readFilter value) _
      (fun _ => readJoins value) _
      query
  cases hstore : storeSubQueryField name value (fun _ => .ok none) (fun _ => .ok []) query with
  | ok next =>
    refine .of_ok (hread.trans hstore) (.plain hkind hstore) ?_ ?_
    · intro other hother
      cases hother with
      | plain _ hnext => exact Except.ok.inj (hnext.symm.trans hstore)
      | filter hfilter | joins hjoins => simp_all
    · intro mistake hfails
      cases hfails with
      | plain _ herror => cases (storeSubQueryField_error herror).symm.trans hstore
      | filter hfilter | joinsShape hjoins | join hjoins => simp_all
  | error mistake =>
    refine .of_error (hread.trans hstore) (.plain hkind (storeSubQueryField_error hstore)) ?_ ?_
    · intro other hother
      cases hother with
      | plain _ herror =>
          exact Except.error.inj ((storeSubQueryField_error herror).symm.trans hstore)
      | filter hfilter | joinsShape hjoins | join hjoins => simp_all
    · intro next hnext
      cases hnext with
      | plain _ hnext => cases hnext.symm.trans hstore
      | filter hfilter | joins hjoins => simp_all

/-- The conditions of a subquery are a filter, whichever of the two they are stored as. -/
theorem faithful_filterField (hkind : FieldKind.ofName name = .filter) (h : IsFaithful value) :
    Faithful (readSubQueryField query) (fun field => SubQueryFieldReads field query)
      SubQueryFieldFails (name, value) := by
  obtain ⟨update, hupdate⟩ := storeSubQueryField_filter hkind value query
  have hread :
      readSubQueryField query (name, value) = (update <$> readFilter value).mapError id := by
    rw [readSubQueryField, hupdate]
    cases readFilter value <;> rfl
  refine .of_map (faithful_filter h) hread ?_ ?_
  · intro result
    constructor
    · intro hfield
      cases hfield with
      | filter _ hfilter hstore =>
        rw [hupdate] at hstore
        exact ⟨_, hfilter, Except.ok.inj hstore⟩
      | plain hplain | joins hjoins => simp_all
    · rintro ⟨filter, hfilter, rfl⟩
      exact .filter hkind hfilter (hupdate _ _)
  · intro mistake
    constructor
    · intro hfield
      cases hfield with
      | filter _ hfails => exact ⟨_, hfails, rfl⟩
      | plain hplain | joinsShape hjoins | join hjoins => simp_all
    · rintro ⟨_, hfails, rfl⟩
      exact .filter hkind hfails

/-- The joins of one kind are read under their names, unless they are no object at all. -/
theorem faithful_joinsField (hkind : FieldKind.ofName name = .joins)
    (hbelow : IsFaithfulBelow value) :
    Faithful (readSubQueryField query) (fun field => SubQueryFieldReads field query)
      SubQueryFieldFails (name, value) := by
  obtain ⟨update, hupdate⟩ := storeSubQueryField_joins hkind value query
  -- the grammar asks for the shape before it asks for the joins
  rcases value.object_or with ⟨members, rfl⟩ | hshape
  · have hjoins : Faithful (List.mapM readNamedJoin) (List.Forall₂ NamedJoinReads)
        (FirstFails (fun member => ∃ join, NamedJoinReads member join) NamedJoinFails) members :=
      .mapM fun member hmember =>
        faithful_namedJoin (hbelow.inside (Json.sizeOf_lt_of_mem_members hmember))
    have hread : readSubQueryField query (name, .object members) =
        (update <$> members.mapM readNamedJoin).mapError id := by
      rw [readSubQueryField, hupdate, readJoins, readJoinEntries_eq_mapM]
      cases members.mapM readNamedJoin <;> rfl
    refine .of_map hjoins hread ?_ ?_
    · intro result
      constructor
      · intro hfield
        cases hfield with
        | joins _ hjoins hstore =>
          rw [hupdate] at hstore
          exact ⟨_, hjoins, Except.ok.inj hstore⟩
        | plain hplain | filter hfilter => simp_all
      · rintro ⟨joins, hjoins, rfl⟩
        exact .joins hkind hjoins (hupdate _ _)
    · intro mistake
      constructor
      · intro hfield
        cases hfield with
        | join _ hfails => exact ⟨_, hfails, rfl⟩
        | joinsShape _ hshape => exact absurd rfl (hshape members)
        | plain hplain | filter hfilter => simp_all
      · rintro ⟨_, hfails, rfl⟩
        exact .join hkind hfails
  · have hread : readSubQueryField query (name, value) = .error (.wrongType value .map) := by
      rw [readSubQueryField, hupdate]
      cases value with
      | object members => exact absurd rfl (hshape members)
      | _ => rfl
    refine .of_error hread (.joinsShape hkind hshape) ?_ ?_
    · intro other hother
      cases hother with
      | joinsShape => rfl
      | join => exact absurd rfl (hshape _)
      | plain hplain | filter hfilter => simp_all
    · intro next hnext
      cases hnext with
      | joins => exact absurd rfl (hshape _)
      | plain hplain | filter hfilter => simp_all

/-- The fields of a subquery are told apart by what they hold: conditions, joins, or nothing that
holds predicates. -/
theorem faithful_subQueryField (h : IsFaithful value) (hbelow : IsFaithfulBelow value) :
    Faithful (readSubQueryField query) (fun field => SubQueryFieldReads field query)
      SubQueryFieldFails (name, value) := by
  cases hkind : FieldKind.ofName name with
  | plain => exact faithful_plainField query hkind
  | filter => exact faithful_filterField query hkind h
  | joins => exact faithful_joinsField query hkind hbelow

end SubQueryFields

/-- A subquery is a record of its fields, each of which is smaller than it is. -/
theorem faithful_subQuery {value : Json} (h : IsFaithfulBelow value) :
    Faithful SubQuery.ofJson? SubQueryReads SubQueryFails value := by
  refine .record readSubQueryField ?_ ?_ ?_ (fun name field hfield query =>
    faithful_subQueryField query (h field hfield) (h.inside hfield))
  · intro members
    exact eq_foldlM (fun _ => rfl) (fun _ _ _ => rfl) members SubQuery.empty
  · intro items
    exact eq_foldlM_zip (readSubQueryItems items.length)
      (fun names _ => by cases names <;> rfl) (fun _ _ _ => rfl) (fun _ _ _ _ _ => rfl) _ items
      SubQuery.empty
  · intro other hobject harray
    cases other with
    | object members => exact absurd rfl (hobject members)
    | array items => exact absurd rfl (harray items)
    | _ => rfl

theorem faithful_namedQuery {name : String} {value : Json} (h : IsFaithfulBelow value) :
    Faithful readNamedQuery NamedQueryReads NamedQueryFails (name, value) := by
  refine .of_map (faithful_subQuery h) (f := (name, ·)) (g := .invalidDescriptor) ?_ ?_ ?_
  · rw [readNamedQuery, asInvalid_eq]
    cases SubQuery.ofJson? value <;> rfl
  · intro result
    constructor
    · rintro ⟨hquery⟩
      exact ⟨_, hquery, rfl⟩
    · rintro ⟨query, hquery, rfl⟩
      exact .named hquery
  · intro error
    constructor
    · rintro ⟨hfails⟩
      exact ⟨_, hfails, rfl⟩
    · rintro ⟨mistake, hfails, rfl⟩
      exact .named hfails

/-- The first subquery that cannot be read decides the error. -/
theorem faithful_namedQueries {members : List (String × Json)}
    (h : IsFaithfulBelow (.object members)) :
    Faithful (List.mapM readNamedQuery) (List.Forall₂ NamedQueryReads)
      (FirstFails (fun member => ∃ query, NamedQueryReads member query) NamedQueryFails) members :=
  .mapM fun _ hmember => faithful_namedQuery (h.inside (Json.sizeOf_lt_of_mem_members hmember))

end DescriptorSql
