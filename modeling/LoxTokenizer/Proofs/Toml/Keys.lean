import LoxTokenizer.Toml.Document
import Mathlib.Data.List.Nodup

/-!
# No key is defined twice

In a document that is read no table has a key twice, however deep it lies and however it is
written: with headers, with dotted keys or between braces. Whatever adds to a table keeps it so,
and so does changing a table that lies in another.

* `Value.Distinct`, `Entries.Distinct`: no table has a key twice.
* `Entries.Keeps`: a change that keeps it so, with one lemma for each change.
* **`distinct_of_read?`**: it is so of every document that is read.
-/

namespace LoxTokenizer.Toml

/-- The names of the keys of a table. -/
def Entries.names (entries : Entries) : List String :=
  entries.map fun e => e.1.name

/-- A value in which no table has a key twice. -/
inductive Value.Distinct : Value → Prop where
  | string (s : String) : Distinct (.string s)
  | integer (n : Int) : Distinct (.integer n)
  | float (x : Float) : Distinct (.float x)
  | boolean (b : Bool) : Distinct (.boolean b)
  | date : Distinct .date
  | array {items : List (Located Value)} (h : ∀ item ∈ items, Distinct item.value) :
    Distinct (.array items)
  | table {origin : TableOrigin} {entries : Entries} (keys : entries.names.Nodup)
    (values : ∀ e ∈ entries, Distinct e.2.value) : Distinct (.table origin entries)
  | tables {items : List (Located Value)} (h : ∀ item ∈ items, Distinct item.value) :
    Distinct (.tables items)

/-- Entries of which none has the key of another, with values in which it is the same. -/
structure Entries.Distinct (entries : Entries) : Prop where
  keys : entries.names.Nodup
  values : ∀ e ∈ entries, e.2.value.Distinct

/-- A change of a table that never defines a key twice. -/
def Entries.Keeps (change : Entries → Option Entries) : Prop :=
  ∀ entries changed, change entries = some changed → entries.Distinct → changed.Distinct

variable {entries changed : Entries} {items grown : List (Located Value)} {v last : Located Value}
  {origin : TableOrigin} {key : Key} {path : List Key} {name : String} {stretch : Option Extent}

theorem Value.distinct_table : (Value.table origin entries).Distinct ↔ entries.Distinct := by
  constructor
  · rintro (_ | _ | _ | _ | _ | _ | ⟨keys, values⟩ | _)
    exact ⟨keys, values⟩
  · rintro ⟨keys, values⟩
    exact .table keys values

theorem Value.distinct_tables :
    (Value.tables items).Distinct ↔ ∀ item ∈ items, item.value.Distinct := by
  constructor
  · rintro (_ | _ | _ | _ | _ | _ | _ | h)
    exact h
  · exact .tables

namespace Entries

/-! ## Tables and their keys -/

theorem distinct_nil : Distinct [] :=
  ⟨List.nodup_nil, nofun⟩

theorem get?_eq_none_iff : entries.get? name = none ↔ name ∉ entries.names := by
  simp [get?, names]

theorem exists_mem_of_get? (h : entries.get? name = some v) :
    ∃ e ∈ entries, e.1.name = name ∧ e.2 = v := by
  unfold get? at h
  obtain ⟨e, hfind, rfl⟩ := Option.map_eq_some_iff.mp h
  exact ⟨e, List.mem_of_find?_eq_some hfind, by simpa using List.find?_some hfind, rfl⟩

theorem Distinct.get? (h : entries.Distinct) (hget : entries.get? name = some v) :
    v.value.Distinct := by
  obtain ⟨e, he, -, rfl⟩ := exists_mem_of_get? hget
  exact h.values e he

theorem Distinct.concat (h : entries.Distinct) (hnew : entries.get? key.name = none)
    (hv : v.value.Distinct) : Distinct (entries ++ [(key, v)]) where
  keys := by
    rw [names, List.map_append]
    refine List.nodup_append.mpr ⟨h.keys, List.nodup_singleton _, fun old hold new hnew' => ?_⟩
    rw [List.mem_singleton.mp hnew']
    rintro rfl
    exact get?_eq_none_iff.mp hnew hold
  values e he := by
    rcases List.mem_append.mp he with he | he
    · exact h.values e he
    · rw [List.mem_singleton.mp he]
      exact hv

/-- Changing values alone, each to one in which no key is twice. -/
theorem Distinct.map (h : entries.Distinct) {f : Key × Located Value → Key × Located Value}
    (hkey : ∀ e, (f e).1 = e.1) (hvalue : ∀ e ∈ entries, (f e).2.value.Distinct) :
    Distinct (entries.map f) where
  keys := by
    have hnames : names (entries.map f) = entries.names := by
      simp [names, hkey]
    rw [hnames]
    exact h.keys
  values e he := by
    obtain ⟨old, hold, rfl⟩ := List.mem_map.mp he
    exact hvalue old hold

theorem Distinct.replace (h : entries.Distinct) (hv : v.value.Distinct) :
    Distinct (entries.replace name v) := by
  refine h.map (fun e => ?_) (fun e he => ?_)
  · split <;> rfl
  · split
    · exact hv
    · exact h.values e he

theorem Distinct.remove (h : entries.Distinct) : Distinct (entries.remove name) where
  keys := h.keys.sublist (List.filter_sublist.map _)
  values e he := h.values e (List.mem_filter.mp he).1

theorem get?_remove : Entries.get? (entries.remove name) name = none := by
  simp [get?, remove]

/-! ## Changes -/

variable {change : Entries → Option Entries}

theorem distinct_changeLast (hchange : Keeps change) (h : changeLast change items = some grown)
    (hitems : ∀ item ∈ items, item.value.Distinct) : ∀ item ∈ grown, item.value.Distinct := by
  fun_induction changeLast change items generalizing grown with
  | case1 => cases h
  | case2 origin entries stretch =>
    obtain ⟨changed, hchanged, rfl⟩ := Option.map_eq_some_iff.mp h
    have hentries := Value.distinct_table.mp (hitems _ (List.mem_singleton_self _))
    intro item hitem
    rw [List.mem_singleton.mp hitem]
    exact Value.distinct_table.mpr (hchange _ _ hchanged hentries)
  | case3 => cases h
  | case4 item items _ _ ih =>
    obtain ⟨changed, hchanged, rfl⟩ := Option.map_eq_some_iff.mp h
    rw [List.forall_mem_cons] at hitems ⊢
    exact ⟨hitems.1, ih hchanged hitems.2⟩

/-- Changing the table under a key, or the last one of the array of tables under it. -/
theorem Keeps.changeUnder (hchange : Keeps change) : Keeps (changeUnder key change) := by
  intro entries result h hentries
  unfold Entries.changeUnder at h
  split at h
  · rename_i hnew
    obtain ⟨changed, hchanged, rfl⟩ := Option.map_eq_some_iff.mp h
    exact hentries.concat hnew (Value.distinct_table.mpr (hchange _ _ hchanged distinct_nil))
  · cases h
  · rename_i hget
    obtain ⟨changed, hchanged, rfl⟩ := Option.map_eq_some_iff.mp h
    have hinner := Value.distinct_table.mp (hentries.get? hget)
    exact hentries.replace (Value.distinct_table.mpr (hchange _ _ hchanged hinner))
  · rename_i hget
    obtain ⟨changed, hchanged, rfl⟩ := Option.map_eq_some_iff.mp h
    have hinner := Value.distinct_tables.mp (hentries.get? hget)
    exact hentries.replace (.tables (distinct_changeLast hchange hchanged hinner))
  · cases h

/-- Putting a value under a dotted key. Each part but the last is the key of a table, or of an array
of tables, in which the rest is put. -/
theorem keeps_put (hv : v.value.Distinct) (path : List Key) : Keeps (put v path) := by
  induction path with
  | nil =>
    intro entries result h
    cases h
  | cons key path ih =>
    intro entries result h hentries
    cases path with
    | nil =>
      unfold put at h
      split at h
      · rename_i hnew
        rw [← Option.some.inj h]
        exact hentries.concat hnew hv
      · cases h
    | cons next path =>
      have hinto {origin : TableOrigin} {inner changed : Entries}
          (hchanged : put v (next :: path) inner = some changed) (hinner : inner.Distinct) :
          (Value.table origin changed).Distinct :=
        Value.distinct_table.mpr (ih _ _ hchanged hinner)
      unfold put at h
      split at h
      · rename_i hnew
        obtain ⟨made, hmade, rfl⟩ := Option.map_eq_some_iff.mp h
        exact hentries.concat hnew (hinto hmade distinct_nil)
      · rename_i hget
        obtain ⟨changed, hchanged, rfl⟩ := Option.map_eq_some_iff.mp h
        exact hentries.replace (hinto hchanged (Value.distinct_table.mp (hentries.get? hget)))
      · rename_i hget
        split at h
        · cases h
        · obtain ⟨changed, hchanged, rfl⟩ := Option.map_eq_some_iff.mp h
          exact hentries.replace (hinto hchanged (Value.distinct_table.mp (hentries.get? hget)))
      · rename_i hget
        split at h
        · cases h
        · obtain ⟨changed, hchanged, rfl⟩ := Option.map_eq_some_iff.mp h
          have hitems := Value.distinct_tables.mp (hentries.get? hget)
          exact hentries.replace (.tables (distinct_changeLast ih hchanged hitems))
      · cases h

theorem value_extendOver : (v.extendOver last).value = v.value := by
  unfold Located.extendOver
  split <;> rfl

/-- The stretch of a section is no matter of its keys. -/
theorem distinct_sectionOver (h : v.value.Distinct) : (v.sectionOver last).value.Distinct := by
  unfold Located.sectionOver
  split
  · rename_i items hitems
    rw [hitems] at h
    have hitems := Value.distinct_tables.mp h
    rw [value_extendOver]
    refine .tables fun item hitem => ?_
    rcases List.mem_append.mp hitem with hitem | hitem
    · exact hitems item (List.dropLast_subset _ hitem)
    · obtain ⟨end', hend, rfl⟩ := Option.map_eq_some_iff.mp (Option.mem_toList.mp hitem)
      rw [value_extendOver]
      exact hitems _ (List.mem_of_getLast? hend)
  · rw [value_extendOver]
    exact h

theorem distinct_growUnder (h : entries.Distinct) : (growUnder key last entries).Distinct := by
  refine h.map (fun e => ?_) (fun e he => ?_)
  · split <;> rfl
  · split
    · exact distinct_sectionOver (h.values e he)
    · exact h.values e he

/-- Putting a value under a dotted key of the section that a header names. -/
theorem keeps_putWithin (hv : v.value.Distinct) (dotted path : List Key) :
    Keeps (putWithin v dotted path) := by
  induction path with
  | nil => exact keeps_put hv dotted
  | cons key path ih =>
    cases path with
    | nil =>
      intro entries result h hentries
      obtain ⟨changed, hchanged, rfl⟩ := Option.map_eq_some_iff.mp h
      exact distinct_growUnder ((keeps_put hv dotted).changeUnder _ _ hchanged hentries)
    | cons next path => exact ih.changeUnder

/-- Opening the table under a key. One that is there already moves to the end. -/
theorem keeps_openTable (stretch : Extent) (key : Key) : Keeps (openTable stretch key) := by
  intro entries result h hentries
  unfold openTable at h
  split at h
  · rename_i hnew
    rw [← Option.some.inj h]
    exact hentries.concat hnew (Value.distinct_table.mpr distinct_nil)
  · rename_i hget
    have hinner := Value.distinct_table.mp (hentries.get? hget)
    rw [← Option.some.inj h]
    exact hentries.remove.concat get?_remove (Value.distinct_table.mpr hinner)
  · cases h

/-- Adding a table to the array of tables under a key. -/
theorem keeps_addTable (stretch : Extent) (key : Key) : Keeps (addTable stretch key) := by
  have hopened : (Value.table .header []).Distinct := Value.distinct_table.mpr distinct_nil
  intro entries result h hentries
  unfold addTable at h
  dsimp only at h
  split at h
  · rename_i hnew
    rw [← Option.some.inj h]
    exact hentries.concat hnew (.tables (List.forall_mem_singleton.mpr hopened))
  · rename_i hget
    have hitems := Value.distinct_tables.mp (hentries.get? hget)
    rw [← Option.some.inj h]
    refine hentries.replace (.tables fun item hitem => ?_)
    rcases List.mem_append.mp hitem with hitem | hitem
    · exact hitems item hitem
    · rw [List.mem_singleton.mp hitem]
      exact hopened
  · cases h

/-- Doing something to the last key of a header, in the table that the others name. -/
theorem keeps_atHeader {act : Key → Entries → Option Entries} (hact : ∀ key, Keeps (act key))
    (path : List Key) : Keeps (atHeader act path) := by
  induction path with
  | nil =>
    intro entries result h
    cases h
  | cons key path ih =>
    cases path with
    | nil => exact hact key
    | cons next path => exact ih.changeUnder

end Entries

/-- What each of some steps keeps, all of them keep. -/
theorem holds_of_foldlM {α σ : Type} {step : σ → α → Option σ} {P : σ → Prop} {l : List α}
    {before after : σ}
    (hstep : ∀ a ∈ l, ∀ s s', step s a = some s' → P s → P s')
    (h : l.foldlM step before = some after) (hbefore : P before) : P after := by
  induction l generalizing before with
  | nil =>
    rw [← Option.some.inj h]
    exact hbefore
  | cons a l ih =>
    rw [List.foldlM_cons] at h
    obtain ⟨between, hfirst, hrest⟩ := Option.bind_eq_some_iff.mp h
    rw [List.forall_mem_cons] at hstep
    exact ih hstep.2 hrest (hstep.1 before between hfirst hbefore)

/-! ## Values -/

theorem Scalar.distinct_of_ofWord? {word : List Char} {v : Value} (h : ofWord? word = some v) :
    v.Distinct := by
  unfold ofWord? at h
  split at h
  · rw [← Option.some.inj h]
    exact .boolean true
  split at h
  · rw [← Option.some.inj h]
    exact .boolean false
  split at h
  · rw [← Option.some.inj h]
    exact .date
  split at h
  · rw [← Option.some.inj h]
    exact .float _
  · obtain ⟨n, -, rfl⟩ := Option.map_eq_some_iff.mp h
    exact .integer n

theorem Scalar.distinct_of_read? {text rest : List Char} {v : Value}
    (h : read? text = some (v, rest)) : v.Distinct := by
  unfold read? at h
  dsimp only at h
  split at h
  · split at h
    · split at h
      · cases h
        exact .date
      · cases h
    · cases h
      exact .date
  · obtain ⟨v, hword, heq⟩ := Option.map_eq_some_iff.mp h
    cases heq
    exact distinct_of_ofWord? hword

namespace Document

/-- A reader of values in which no table has a key twice. -/
def ReadsDistinct (read : List Char → Option (Located Value × List Char)) : Prop :=
  ∀ text v rest, read text = some (v, rest) → v.value.Distinct

variable {read : List Char → Option (Located Value × List Char)} {text rest : List Char}
  {pairs : List (List Key × Located Value)}

theorem distinct_of_items? (hread : ReadsDistinct read) {bound : Nat}
    (h : items? read bound text = some (items, rest)) : ∀ item ∈ items, item.value.Distinct := by
  induction bound generalizing text items rest with
  | zero => cases h
  | succ bound ih =>
    unfold items? at h
    split at h
    · cases h
      exact nofun
    · obtain ⟨⟨item, behind⟩, hitem, h⟩ := Option.bind_eq_some_iff.mp h
      have hfirst : item.value.Distinct := hread _ _ _ hitem
      dsimp only at h
      split at h
      · cases h
        exact List.forall_mem_singleton.mpr hfirst
      · obtain ⟨⟨more, last⟩, hmore, h⟩ := Option.bind_eq_some_iff.mp h
        cases h
        exact List.forall_mem_cons.mpr ⟨hfirst, ih hmore⟩
      · cases h

theorem distinct_of_keyValue? (hread : ReadsDistinct read) {pair : List Key × Located Value}
    (h : keyValue? read text = some (pair, rest)) : pair.2.value.Distinct := by
  obtain ⟨⟨path, behind⟩, -, h⟩ := Option.bind_eq_some_iff.mp h
  dsimp only at h
  split at h
  · obtain ⟨⟨v, last⟩, hv, h⟩ := Option.bind_eq_some_iff.mp h
    cases h
    exact hread _ _ _ hv
  · cases h

theorem distinct_of_inlineEntries? (hread : ReadsDistinct read) {bound : Nat}
    (h : inlineEntries? (keyValue? read) bound text = some (pairs, rest)) :
    ∀ pair ∈ pairs, pair.2.value.Distinct := by
  induction bound generalizing text pairs rest with
  | zero => cases h
  | succ bound ih =>
    obtain ⟨⟨pair, behind⟩, hpair, h⟩ := Option.bind_eq_some_iff.mp h
    have hfirst : pair.2.value.Distinct := distinct_of_keyValue? hread hpair
    dsimp only at h
    split at h
    · cases h
      exact List.forall_mem_singleton.mpr hfirst
    · obtain ⟨⟨more, last⟩, hmore, h⟩ := Option.bind_eq_some_iff.mp h
      cases h
      exact List.forall_mem_cons.mpr ⟨hfirst, ih hmore⟩
    · cases h

theorem distinct_of_inlineTable? (hread : ReadsDistinct read) {v : Value}
    (h : inlineTable? read text = some (v, rest)) : v.Distinct := by
  unfold inlineTable? at h
  split at h
  · cases h
    exact Value.distinct_table.mpr Entries.distinct_nil
  · obtain ⟨⟨pairs, behind⟩, hpairs, h⟩ := Option.bind_eq_some_iff.mp h
    obtain ⟨entries, hentries, h⟩ := Option.bind_eq_some_iff.mp h
    cases h
    have hvalues := distinct_of_inlineEntries? hread hpairs
    refine Value.distinct_table.mpr (holds_of_foldlM (fun pair hpair => ?_) hentries
      Entries.distinct_nil)
    exact Entries.keeps_put (hvalues pair hpair) pair.1

/-- A value of any depth: what lies between its brackets or braces has one level less. -/
theorem readsDistinct_value? (nesting : Nat) : ReadsDistinct (value? nesting) := by
  induction nesting using Nat.strongRecOn with
  | ind nesting ih =>
    intro text v rest h
    unfold value? at h
    dsimp only at h
    split at h
    case h_1 | h_2 =>
      obtain ⟨⟨v, behind⟩, hv, h⟩ := Option.bind_eq_some_iff.mp h
      cases h
      obtain ⟨⟨s, behind⟩, -, heq⟩ := Option.map_eq_some_iff.mp hv
      cases heq
      exact .string _
    case h_3 =>
      split at h
      · cases h
      · rename_i below
        obtain ⟨⟨v, behind⟩, hv, h⟩ := Option.bind_eq_some_iff.mp h
        cases h
        obtain ⟨⟨items, behind⟩, hitems, heq⟩ := Option.map_eq_some_iff.mp hv
        cases heq
        exact .array (distinct_of_items? (ih below (Nat.lt_succ_self below)) hitems)
    case h_4 =>
      split at h
      · cases h
      · rename_i below
        obtain ⟨⟨v, behind⟩, hv, h⟩ := Option.bind_eq_some_iff.mp h
        cases h
        exact distinct_of_inlineTable? (ih below (Nat.lt_succ_self below)) hv
    case h_5 =>
      obtain ⟨⟨v, behind⟩, hv, h⟩ := Option.bind_eq_some_iff.mp h
      cases h
      exact Scalar.distinct_of_read? hv

/-! ## Documents -/

/-- A statement whose value, if it has one, has no key twice in any table. -/
def Statement.Distinct : Statement → Prop
  | .keyValue _ v => v.value.Distinct
  | .header _ _ | .arrayHeader _ _ => True

theorem distinct_of_statement? {statement : Statement}
    (h : statement? text = some (statement, rest)) : statement.Distinct := by
  unfold statement? at h
  split at h
  · obtain ⟨⟨path, behind⟩, -, h⟩ := Option.bind_eq_some_iff.mp h
    dsimp only at h
    split at h <;> cases h
    trivial
  · obtain ⟨⟨path, behind⟩, -, h⟩ := Option.bind_eq_some_iff.mp h
    dsimp only at h
    split at h <;> cases h
    trivial
  · obtain ⟨⟨pair, behind⟩, hpair, heq⟩ := Option.map_eq_some_iff.mp h
    cases heq
    exact distinct_of_keyValue? (readsDistinct_value? maxNesting) hpair

theorem distinct_of_statements? {bound : Nat} {statements : List Statement}
    (h : statements? bound text = some statements) :
    ∀ statement ∈ statements, statement.Distinct := by
  induction bound generalizing text statements with
  | zero =>
    unfold statements? at h
    split at h <;> cases h
    exact nofun
  | succ bound ih =>
    unfold statements? at h
    split at h
    · cases h
      exact nofun
    · split at h
      · exact ih h
      · obtain ⟨⟨statement, behind⟩, hstatement, h⟩ := Option.bind_eq_some_iff.mp h
        obtain ⟨behind, -, h⟩ := Option.bind_eq_some_iff.mp h
        obtain ⟨more, hmore, h⟩ := Option.bind_eq_some_iff.mp h
        cases h
        exact List.forall_mem_cons.mpr ⟨distinct_of_statement? hstatement, ih hmore⟩

/-- No statement defines a key twice. -/
theorem distinct_add {draft added : Draft} {statement : Statement} (hstatement : statement.Distinct)
    (h : draft.add statement = some added) (hdraft : draft.entries.Distinct) :
    added.entries.Distinct := by
  cases statement with
  | keyValue path v =>
    obtain ⟨entries, hentries, rfl⟩ := Option.map_eq_some_iff.mp h
    exact Entries.keeps_putWithin hstatement path draft.current _ _ hentries hdraft
  | header path stretch =>
    obtain ⟨entries, hentries, rfl⟩ := Option.map_eq_some_iff.mp h
    exact Entries.keeps_atHeader (Entries.keeps_openTable stretch) path _ _ hentries hdraft
  | arrayHeader path stretch =>
    obtain ⟨entries, hentries, rfl⟩ := Option.map_eq_some_iff.mp h
    exact Entries.keeps_atHeader (Entries.keeps_addTable stretch) path _ _ hentries hdraft

/-- **No key is defined twice** in a document that is read. -/
theorem distinct_of_read? (h : Document.read? text = some entries) : entries.Distinct := by
  obtain ⟨statements, hstatements, h⟩ := Option.bind_eq_some_iff.mp h
  obtain ⟨draft, hdraft, h⟩ := Option.bind_eq_some_iff.mp h
  cases h
  have hdistinct := distinct_of_statements? hstatements
  exact holds_of_foldlM (P := fun draft : Draft => draft.entries.Distinct)
    (fun statement hmem _ _ => distinct_add (hdistinct statement hmem)) hdraft Entries.distinct_nil

end Document

end LoxTokenizer.Toml
