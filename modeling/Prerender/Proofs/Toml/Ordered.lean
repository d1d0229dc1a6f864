/-
Data that a TOML document denotes is in order.

Whichever statements, dotted keys and inline tables a table came from,
its keys ascend. Two notions are needed on the way. A finished value has
tables and lists (`Value.IsOrdered`); a table under way has entries,
which know where they came from, since not every table may be extended
(`Entry.IsOrdered`, `Table.IsOrdered`).

The order is kept by each thing that a reader does:

1. Every change of a table is made at the end of a path, by `modifyAt`;
   the tables on the way are put back under their names, in order. So a
   change that keeps the order at its place keeps it throughout
   (`Table.IsOrdered.modifyAt`), be it a pair, the beginning of a table
   or of an item in a list of tables.
2. Whatever value is read is in order (`readValue_isOrdered`). Scalars
   are data of one piece; lists and inline tables are read by a loop
   that carries what was read, and the order of this is its invariant.
3. Statements are read one by one and carried out in sequence
   (`build_isOrdered`).

So the finished document is in order, and its data with it
(`isOrdered_ofText?`). How the text is split into tokens plays no part;
only that a value came out does.
-/
import Prerender.Proofs.Json.Overlay

namespace Prerender.Toml

-- ============================================================== notions

/-- Whether the keys of all tables in a value, at any depth, are in ascending
order. -/
inductive Value.IsOrdered : Value → Prop
  | data {value : Json} (ordered : value.IsOrdered) : IsOrdered (.data value)
  | noNumber : IsOrdered .noNumber
  | list {items : List Value} (each : ∀ item ∈ items, item.IsOrdered) :
      IsOrdered (.list items)
  | table {members : List (String × Value)} (ascending : Ascending members)
      (each : ∀ member ∈ members, member.2.IsOrdered) :
      IsOrdered (.table members)

/-- Whether the keys of all tables in an entry, at any depth, are in ascending
order. -/
inductive Entry.IsOrdered : Entry → Prop
  | value {v : Value} (ordered : v.IsOrdered) : IsOrdered (.value v)
  | table {origin : Origin} {entries : List (String × Entry)}
      (ascending : Ascending entries)
      (each : ∀ entry ∈ entries, entry.2.IsOrdered) :
      IsOrdered (.table origin entries)
  | tables {earlier : List Value} {entries : List (String × Entry)}
      (finished : ∀ v ∈ earlier, v.IsOrdered) (ascending : Ascending entries)
      (each : ∀ entry ∈ entries, entry.2.IsOrdered) :
      IsOrdered (.tables earlier entries)

/-- Whether the keys of a table under way and of all tables in it are in
ascending order. -/
structure Table.IsOrdered (table : Table) : Prop where
  ascending : Ascending table
  each : ∀ entry ∈ table, entry.2.IsOrdered

-- ====================================================== finished tables

/-- Finishing the entries of a table keeps their keys. -/
theorem Entry.map_fst_membersOf (entries : List (String × Entry)) :
    (membersOf entries).map Prod.fst = entries.map Prod.fst := by
  induction entries with
  | nil => rfl
  | cons head rest ih =>
      obtain ⟨name, entry⟩ := head
      rw [membersOf, List.map_cons, List.map_cons, ih]

/-- Whether entries ascend can be told from their keys. -/
theorem ascending_of_keys {α β : Type} {entries : List (String × α)}
    {others : List (String × β)}
    (keys : others.map Prod.fst = entries.map Prod.fst)
    (h : Ascending entries) :
    Ascending others := by
  rw [Ascending, ← List.pairwise_map (f := Prod.fst)] at h ⊢
  rwa [keys]

mutual

/-- A finished entry is in order. -/
theorem Entry.IsOrdered.toValue :
    ∀ {entry : Entry}, entry.IsOrdered → entry.toValue.IsOrdered
  | .value v, h => by
      cases h with
      | value ordered => exact ordered
  | .table origin entries, h => by
      cases h with
      | table ascending each =>
          exact .table
            (ascending_of_keys (Entry.map_fst_membersOf entries) ascending)
            (Entry.isOrdered_membersOf each)
  | .tables earlier entries, h => by
      cases h with
      | tables finished ascending each =>
          have hlast : (Value.table (Entry.membersOf entries)).IsOrdered :=
            .table (ascending_of_keys
              (Entry.map_fst_membersOf entries) ascending)
              (Entry.isOrdered_membersOf each)
          exact .list (List.forall_mem_append.2
            ⟨finished, List.forall_mem_singleton.2 hlast⟩)

/-- So are the entries of a table, once they are finished. -/
theorem Entry.isOrdered_membersOf : ∀ {entries : List (String × Entry)},
    (∀ entry ∈ entries, entry.2.IsOrdered) →
    ∀ member ∈ Entry.membersOf entries, member.2.IsOrdered
  | [], _ => List.forall_mem_nil _
  | (name, entry) :: rest, h => by
      obtain ⟨hentry, hrest⟩ := List.forall_mem_cons.1 h
      exact List.forall_mem_cons.2
        ⟨Entry.IsOrdered.toValue hentry, Entry.isOrdered_membersOf hrest⟩

end

-- ====================================================== changing tables

namespace Table.IsOrdered

variable {table table' : Table}

theorem nil : Table.IsOrdered [] := ⟨List.Pairwise.nil, List.forall_mem_nil _⟩

/-- A table in order is a value in order, once its entries are finished. -/
theorem toValue (h : table.IsOrdered) : table.toValue.IsOrdered :=
  .table (ascending_of_keys (Entry.map_fst_membersOf table) h.ascending)
    (Entry.isOrdered_membersOf h.each)

theorem insert (h : table.IsOrdered) {name : String} {entry : Entry}
    (hentry : entry.IsOrdered) :
    Table.IsOrdered (Sorted.insert name entry table) := by
  refine ⟨Sorted.ascending_insert h.ascending, fun other hother => ?_⟩
  rcases Sorted.mem_insert hother with rfl | hother
  · exact hentry
  · exact h.each other hother

theorem of_lookup (h : table.IsOrdered) {name : String} {entry : Entry}
    (held : table.lookup name = some entry) : entry.IsOrdered := by
  obtain ⟨before, after, rfl, -⟩ := List.lookup_eq_some_iff.1 held
  exact h.each (name, entry) (List.mem_append_right _ List.mem_cons_self)

/-- A change at the end of a path keeps the whole table in order if it keeps
the table that it changes. -/
theorem modifyAt {making : Origin} {change : Origin → Table → Option Table}
    (keeps : ∀ {origin : Origin} {t t' : Table}, t.IsOrdered →
      change origin t = some t' → t'.IsOrdered)
    {path : List String} {origin : Origin} (h : table.IsOrdered)
    (changed : Table.modifyAt making change path origin table = some table') :
    table'.IsOrdered := by
  induction path generalizing origin table table' with
  | nil => exact keeps h changed
  | cons name path ih =>
      rw [Table.modifyAt] at changed
      -- a table of this name has to be begun, to be entered, or to be entered
      -- at its last item
      cases hheld : table.lookup name with
      | none =>
          simp only [hheld, Option.bind_eq_bind, Option.bind_eq_some_iff,
            Option.some.injEq] at changed
          obtain ⟨entries, hentries, rfl⟩ := changed
          have hnew := ih .nil hentries
          exact h.insert (.table hnew.ascending hnew.each)
      | some entry =>
          have hentry := h.of_lookup hheld
          cases hentry with
          | value _ => simp [hheld] at changed
          | table ascending each =>
              simp only [hheld] at changed
              split at changed
              · cases changed
              · simp only [Option.bind_eq_bind, Option.bind_eq_some_iff,
                  Option.some.injEq] at changed
                obtain ⟨entries, hentries, rfl⟩ := changed
                have hnew := ih ⟨ascending, each⟩ hentries
                exact h.insert (.table hnew.ascending hnew.each)
          | tables finished ascending each =>
              simp only [hheld, Option.bind_eq_bind, Option.bind_eq_some_iff,
                Option.some.injEq] at changed
              obtain ⟨entries, hentries, rfl⟩ := changed
              have hnew := ih ⟨ascending, each⟩ hentries
              exact h.insert (.tables finished hnew.ascending hnew.each)

variable {place path : List String} {name : String} {value : Value}

/-- A pair that is added at the end of a path leaves the tables in order. -/
theorem addPair (h : table.IsOrdered) (hvalue : value.IsOrdered)
    (added : table.addPair path name value = some table') :
    table'.IsOrdered := by
  refine h.modifyAt (fun ht changed => ?_) added
  split at changed
  · cases changed
  · cases changed
    exact ht.insert (.value hvalue)

theorem addPairAt (h : table.IsOrdered) (hvalue : value.IsOrdered)
    (added : table.addPairAt place path name value = some table') :
    table'.IsOrdered :=
  h.modifyAt (fun ht changed => ht.addPair hvalue changed) added

/-- The beginning of a table keeps the order. -/
theorem beginTable (h : table.IsOrdered)
    (begun : table.beginTable path name = some table') :
    table'.IsOrdered := by
  refine h.modifyAt (fun {_ t _} ht changed => ?_) begun
  split at changed
  · cases changed
    exact ht.insert (.table .nil (List.forall_mem_nil _))
  · next entries hheld =>
    cases changed
    cases ht.of_lookup hheld with
    | table ascending each => exact ht.insert (.table ascending each)
  · cases changed

/-- So does a new item of a list of tables, which begins empty. -/
theorem beginItem (h : table.IsOrdered)
    (begun : table.beginItem path name = some table') :
    table'.IsOrdered := by
  refine h.modifyAt (fun {_ t _} ht changed => ?_) begun
  split at changed
  · cases changed
    exact ht.insert
      (.tables (List.forall_mem_nil _) .nil (List.forall_mem_nil _))
  · next earlier entries hheld =>
    cases changed
    cases ht.of_lookup hheld with
    | tables finished ascending each =>
        have hlast : (Table.toValue entries).IsOrdered :=
          toValue ⟨ascending, each⟩
        exact ht.insert (.tables
          (List.forall_mem_append.2
            ⟨finished, List.forall_mem_singleton.2 hlast⟩)
          .nil (List.forall_mem_nil _))
  · cases changed

end Table.IsOrdered

-- ============================================================== reading

/-- A whole number is in order, whether it fits or not. -/
theorem isOrdered_fit (n : Int) : (fit n).IsOrdered := by
  unfold fit
  split
  · exact .data .int
  · exact .noNumber

theorem isOrdered_finite (d : Double) : (finite d).IsOrdered := by
  unfold finite
  split
  · exact .data .double
  · exact .noNumber

variable {cs rest : List Char} {value : Value}

/-- A number in another base is read to one of these. -/
theorem readBased_isOrdered {base : Nat} (h : readBased base cs = some value) :
    value.IsOrdered := by
  unfold readBased at h
  dsimp only at h
  split at h
  · split at h
    · cases h
      exact .noNumber
    · obtain rfl := Option.some.inj h
      exact isOrdered_fit _
  · cases h

/-- A number is in order, in any of the notations that it is read in. -/
theorem readNumber_isOrdered {sign : Option Bool}
    (h : readNumber sign cs = some value) :
    value.IsOrdered := by
  have hwhole : readWhole sign cs = some value → value.IsOrdered := by
    intro h
    unfold readWhole at h
    split at h
    · cases h
    · split at h
      · cases h
        exact isOrdered_fit _
      · cases h
        exact .noNumber
  have hdecimal : readDecimal sign cs = some value → value.IsOrdered := by
    intro h
    unfold readDecimal at h
    rw [Option.ite_none_left_eq_some] at h
    obtain ⟨d, -, rfl⟩ := Option.map_eq_some_iff.1 h.2
    exact isOrdered_finite d
  unfold readNumber at h
  split at h
  · cases h
    exact .data .null
  · split at h
    · split at h
      · cases h
      · exact hwhole h
    · split at h
      · exact hdecimal h
      · split at h
        · exact hwhole h
        · cases h

/-- The data of a moment is an object with one member. -/
theorem isOrdered_moment (moment : Moment) : moment.toJson.IsOrdered :=
  .obj (List.pairwise_singleton _ _) (List.forall_mem_singleton.2 .str)

/-- Scalars have no members. -/
theorem readScalar_isOrdered (h : readScalar cs = some value) :
    value.IsOrdered := by
  unfold readScalar at h
  split at h
  · exact readBased_isOrdered h
  · exact readBased_isOrdered h
  · exact readBased_isOrdered h
  · split at h
    · cases h
      exact .data .bool
    · split at h
      · cases h
        exact .data .bool
      · split at h
        · cases h
          exact .data (isOrdered_moment _)
        · unfold readSigned at h
          split at h <;> exact readNumber_isOrdered h

mutual

/-- A value that is read is in order. -/
theorem readValue_isOrdered :
    ∀ {steps depth : Nat} {cs rest : List Char} {value : Value},
      readValue steps depth cs = some (value, rest) → value.IsOrdered
  | 0, _, _, _, _, h => by
      rw [readValue] at h
      cases h
  | steps + 1, depth, cs, rest, value, h => by
      unfold readValue at h
      split at h
      · obtain ⟨_, -, heq⟩ := Option.map_eq_some_iff.1 h
        cases heq
        exact .data .str
      · obtain ⟨_, -, heq⟩ := Option.map_eq_some_iff.1 h
        cases heq
        exact .data .str
      · split at h
        · cases h
        · exact readItems_isOrdered (List.forall_mem_nil _) h
      · split at h
        · cases h
        · exact readInline_isOrdered .nil h
      · obtain ⟨_, hscalar, heq⟩ := Option.map_eq_some_iff.1 h
        cases heq
        exact readScalar_isOrdered hscalar

/-- The items of a list, those that are read behind those that were. -/
theorem readItems_isOrdered :
    ∀ {steps depth : Nat} {cs rest : List Char} {value : Value}
    {read : List Value}, (∀ item ∈ read, item.IsOrdered) →
      readItems read steps depth cs = some (value, rest) → value.IsOrdered
  | 0, _, _, _, _, _, _, h => by
      rw [readItems] at h
      cases h
  | steps + 1, depth, cs, rest, value, read, hread, h => by
      rw [readItems] at h
      simp only [Option.bind_eq_bind, Option.bind_eq_some_iff] at h
      obtain ⟨cs, -, h⟩ := h
      split at h
      · cases h
        exact .list fun item hitem => hread item (List.mem_reverse.1 hitem)
      · obtain ⟨⟨item, rest'⟩, hitem, h⟩ := Option.bind_eq_some_iff.1 h
        have hread' := List.forall_mem_cons.2 ⟨readValue_isOrdered hitem, hread⟩
        obtain ⟨rest', -, h⟩ := Option.bind_eq_some_iff.1 h
        split at h
        · exact readItems_isOrdered hread' h
        · cases h
          exact .list fun item hitem => hread' item (List.mem_reverse.1 hitem)
        · cases h

/-- The members of an inline table, added to those that were read. -/
theorem readInline_isOrdered :
    ∀ {steps depth : Nat} {cs rest : List Char} {value : Value}
    {table : Table}, table.IsOrdered →
      readInline table steps depth cs = some (value, rest) → value.IsOrdered
  | 0, _, _, _, _, _, _, h => by
      rw [readInline] at h
      cases h
  | steps + 1, depth, cs, rest, value, table, htable, h => by
      rw [readInline] at h
      obtain ⟨cs, -, h⟩ := Option.bind_eq_some_iff.1 h
      split at h
      · cases h
        exact htable.toValue
      · obtain ⟨⟨⟨path, name⟩, rest'⟩, -, h⟩ := Option.bind_eq_some_iff.1 h
        obtain ⟨rest', -, h⟩ := Option.bind_eq_some_iff.1 h
        split at h
        · obtain ⟨rest', -, h⟩ := Option.bind_eq_some_iff.1 h
          obtain ⟨⟨held, rest'⟩, hheld, h⟩ := Option.bind_eq_some_iff.1 h
          obtain ⟨table', hadded, h⟩ := Option.bind_eq_some_iff.1 h
          have htable' := htable.addPair (readValue_isOrdered hheld) hadded
          obtain ⟨rest', -, h⟩ := Option.bind_eq_some_iff.1 h
          split at h
          · exact readInline_isOrdered htable' h
          · cases h
            exact htable'.toValue
          · cases h
        · cases h

end

-- ============================================================ documents

/-- Whether the value that a statement gives, if it does, is in order. -/
def Statement.IsOrdered : Statement → Prop
  | .pair _ _ value => value.IsOrdered
  | .table _ _ | .item _ _ => True

/-- A statement gives a value that was read. -/
theorem readStatement_isOrdered {statement : Statement}
    (h : readStatement cs = some (statement, rest)) : statement.IsOrdered := by
  unfold readStatement at h
  split at h
  · obtain ⟨⟨⟨path, name⟩, after⟩, -, h⟩ := Option.bind_eq_some_iff.1 h
    dsimp only at h
    split at h
    · cases h
      trivial
    · cases h
  · obtain ⟨⟨⟨path, name⟩, after⟩, -, h⟩ := Option.bind_eq_some_iff.1 h
    dsimp only at h
    split at h
    · cases h
      trivial
    · cases h
  · obtain ⟨⟨⟨path, name⟩, after⟩, -, h⟩ := Option.bind_eq_some_iff.1 h
    dsimp only at h
    split at h
    · obtain ⟨⟨value, after⟩, hvalue, h⟩ := Option.bind_eq_some_iff.1 h
      cases h
      exact readValue_isOrdered hvalue
    · cases h

/-- The statements of a text hold values in order. -/
theorem readStatements_isOrdered {steps : Nat} {statements : List Statement}
    (h : readStatements steps cs = some statements) :
    ∀ statement ∈ statements, statement.IsOrdered := by
  induction steps generalizing cs statements with
  | zero =>
      rw [readStatements] at h
      cases h
  | succ steps ih =>
      rw [readStatements] at h
      obtain ⟨cs, -, h⟩ := Option.bind_eq_some_iff.1 h
      split at h
      · cases h
        exact List.forall_mem_nil _
      · obtain ⟨⟨statement, rest⟩, hstatement, h⟩ := Option.bind_eq_some_iff.1 h
        obtain ⟨rest, -, h⟩ := Option.bind_eq_some_iff.1 h
        obtain ⟨others, hothers, h⟩ := Option.bind_eq_some_iff.1 h
        cases h
        exact List.forall_mem_cons.2
          ⟨readStatement_isOrdered hstatement, ih hothers⟩

/-- Carrying out statements keeps the document in order. -/
theorem build_isOrdered {place : List String} {table table' : Table}
    {statements : List Statement}
    (each : ∀ statement ∈ statements, statement.IsOrdered)
    (htable : table.IsOrdered)
    (h : build place table statements = some table') : table'.IsOrdered := by
  induction statements generalizing place table with
  | nil =>
      cases h
      exact htable
  | cons statement rest ih =>
      obtain ⟨hstatement, hrest⟩ := List.forall_mem_cons.1 each
      cases statement with
      | pair path name value =>
          obtain ⟨mid, hmid, h⟩ := Option.bind_eq_some_iff.1 h
          exact ih hrest (htable.addPairAt hstatement hmid) h
      | table path name =>
          obtain ⟨mid, hmid, h⟩ := Option.bind_eq_some_iff.1 h
          exact ih hrest (htable.beginTable hmid) h
      | item path name =>
          obtain ⟨mid, hmid, h⟩ := Option.bind_eq_some_iff.1 h
          exact ih hrest (htable.beginItem hmid) h

-- ================================================================= data

/-- The data of a table has its keys. -/
theorem Value.map_fst_membersToJson? {members : List (String × Value)}
    {data : List (String × Json)}
    (h : membersToJson? members = some data) :
    data.map Prod.fst = members.map Prod.fst := by
  induction members generalizing data with
  | nil =>
      cases h
      rfl
  | cons head rest ih =>
      obtain ⟨name, value⟩ := head
      rw [membersToJson?] at h
      obtain ⟨_, -, h⟩ := Option.bind_eq_some_iff.1 h
      obtain ⟨others, hothers, h⟩ := Option.bind_eq_some_iff.1 h
      cases h
      rw [List.map_cons, List.map_cons, ih hothers]

mutual

/-- The data of a value in order is in order. -/
theorem Value.IsOrdered.toJson? :
    ∀ {value : Value} {json : Json}, value.IsOrdered →
    value.toJson? = some json → json.IsOrdered
  | .data value, json, h, hjson => by
      rw [Value.toJson?] at hjson
      cases hjson
      cases h with
      | data ordered => exact ordered
  | .noNumber, _, _, hjson => by
      rw [Value.toJson?] at hjson
      cases hjson
  | .list items, json, h, hjson => by
      rw [Value.toJson?] at hjson
      obtain ⟨found, hfound, rfl⟩ := Option.map_eq_some_iff.1 hjson
      cases h with
      | list each => exact .arr (Value.isOrdered_itemsToJson? each hfound)
  | .table [], json, _, hjson => by
      rw [Value.toJson?] at hjson
      cases hjson
      exact .obj .nil (List.forall_mem_nil _)
  | .table ((name, value) :: rest), json, h, hjson => by
      rw [Value.toJson?] at hjson
      split at hjson
      · -- a table with a mark of its own stands for a moment
        obtain ⟨moment, -, rfl⟩ := Option.map_eq_some_iff.1 hjson
        exact isOrdered_moment moment
      · obtain ⟨first, hfirst, hjson⟩ := Option.bind_eq_some_iff.1 hjson
        obtain ⟨others, hothers, hjson⟩ := Option.bind_eq_some_iff.1 hjson
        cases hjson
        cases h with
        | table ascending each =>
            obtain ⟨hvalue, hrest⟩ := List.forall_mem_cons.1 each
            refine .obj (ascending_of_keys ?_ ascending) (List.forall_mem_cons.2
              ⟨Value.IsOrdered.toJson? hvalue hfirst,
                Value.isOrdered_membersToJson? hrest hothers⟩)
            rw [List.map_cons, List.map_cons,
              Value.map_fst_membersToJson? hothers]

/-- The data of items in order is in order. -/
theorem Value.isOrdered_itemsToJson? :
    ∀ {items : List Value} {data : List Json},
    (∀ item ∈ items, item.IsOrdered) → Value.itemsToJson? items = some data →
      ∀ item ∈ data, item.IsOrdered
  | [], _, _, hdata => by
      rw [Value.itemsToJson?] at hdata
      cases hdata
      exact List.forall_mem_nil _
  | item :: rest, _, h, hdata => by
      rw [Value.itemsToJson?] at hdata
      obtain ⟨hitem, hrest⟩ := List.forall_mem_cons.1 h
      obtain ⟨first, hfirst, hdata⟩ := Option.bind_eq_some_iff.1 hdata
      obtain ⟨others, hothers, hdata⟩ := Option.bind_eq_some_iff.1 hdata
      cases hdata
      exact List.forall_mem_cons.2
        ⟨Value.IsOrdered.toJson? hitem hfirst,
          Value.isOrdered_itemsToJson? hrest hothers⟩

theorem Value.isOrdered_membersToJson? : ∀ {members : List (String × Value)}
    {data : List (String × Json)}, (∀ member ∈ members, member.2.IsOrdered) →
      Value.membersToJson? members = some data →
      ∀ member ∈ data, member.2.IsOrdered
  | [], _, _, hdata => by
      rw [Value.membersToJson?] at hdata
      cases hdata
      exact List.forall_mem_nil _
  | (name, value) :: rest, _, h, hdata => by
      rw [Value.membersToJson?] at hdata
      obtain ⟨hvalue, hrest⟩ := List.forall_mem_cons.1 h
      obtain ⟨first, hfirst, hdata⟩ := Option.bind_eq_some_iff.1 hdata
      obtain ⟨others, hothers, hdata⟩ := Option.bind_eq_some_iff.1 hdata
      cases hdata
      exact List.forall_mem_cons.2
        ⟨Value.IsOrdered.toJson? hvalue hfirst,
          Value.isOrdered_membersToJson? hrest hothers⟩

end

/-- The members of the document that a text denotes are in order. -/
theorem isOrdered_ofText? {text : String} {members : List (String × Json)}
    (h : ofText? text = some members) :
    ∀ member ∈ members, member.2.IsOrdered := by
  unfold ofText? at h
  obtain ⟨statements, hstatements, h⟩ := Option.bind_eq_some_iff.1 h
  obtain ⟨table, htable, hmembers⟩ := Option.bind_eq_some_iff.1 h
  have hordered :=
    build_isOrdered (readStatements_isOrdered hstatements) .nil htable
  exact Value.isOrdered_membersToJson?
    (Entry.isOrdered_membersOf hordered.each) hmembers

end Prerender.Toml
