import EsmBundle.OrderedMap

/-!
Lists and maps in which a key keeps the first place it was given, or the last value.

Folding new elements into a list, each only if its key is not there yet, is the
common shape of every merge in this library. `firstsBy` says what such a fold
keeps: the elements whose key no earlier element has.

* `addNew_eq` — such a fold appends the first elements of the keys that were not there yet,
  and nothing else.
* `addNew_addNew` — such folds are associative, in the elements and in their order.
* `lastValue` — what is at a place after items were put there one after another; in
  distinct places every item stays (`lastValue_of_mem`).
* `keys_ofList` — a list of pairs read into a map gives every key its first place.
* `keys_insertAll`, `find?_insertAll` — writing the entries of one map into
  another adds the new keys at the end, and every written key takes its new value.
* `ofList_entries` — the entries of a map, read into a map, are that map.
* `insertAll_insertAll` — writing maps into one another is associative.
* `entries_ofList_filter` — pairs without some of the keys give the map without those keys.
-/

namespace EsmBundle

/-! ### First elements -/

section Firsts

variable {α β : Type} [DecidableEq β]

/-- The elements whose key no earlier element has, in order. -/
def firstsBy (key : α → β) : List α → List α
  | [] => []
  | x :: rest => x :: (firstsBy key rest).filter fun y => key y ≠ key x

/-- Every key is kept once. -/
theorem nodup_map_firstsBy (key : α → β) (xs : List α) : ((firstsBy key xs).map key).Nodup := by
  induction xs with
  | nil => simp [firstsBy]
  | cons x rest ih =>
    rw [firstsBy, List.map_cons, List.nodup_cons]
    refine ⟨?_, (List.filter_sublist.map key).nodup ih⟩
    intro mem
    obtain ⟨y, kept, same⟩ := List.mem_map.mp mem
    simp [same] at kept

/-- An element is kept exactly when it stands somewhere with no earlier one of its key. -/
theorem mem_firstsBy_iff {key : α → β} {xs : List α} {x : α} :
    x ∈ firstsBy key xs ↔
      ∃ before after, xs = before ++ x :: after ∧ key x ∉ before.map key := by
  induction xs with
  | nil => simp [firstsBy]
  | cons y rest ih =>
    rw [firstsBy, List.mem_cons, List.mem_filter, ih]
    constructor
    · rintro (rfl | ⟨⟨before, after, rfl, absent⟩, other⟩)
      · exact ⟨[], rest, rfl, by simp⟩
      · exact ⟨y :: before, after, rfl, by simp_all⟩
    · rintro ⟨before, after, split, absent⟩
      cases before with
      | nil =>
        obtain ⟨rfl, -⟩ := List.cons.inj split
        exact Or.inl rfl
      | cons z before =>
        obtain ⟨rfl, rfl⟩ := List.cons.inj split
        rw [List.map_cons, List.mem_cons, not_or] at absent
        exact Or.inr ⟨⟨before, after, rfl, absent.2⟩, by simp [absent.1]⟩

/-- A list with new elements behind it, each only if its key is not there yet. -/
def addNew (key : α → β) (xs new : List α) : List α :=
  new.foldl (fun xs x => if key x ∈ xs.map key then xs else xs ++ [x]) xs

theorem addNew_cons (key : α → β) (xs : List α) (y : α) (new : List α) :
    addNew key xs (y :: new) =
      addNew key (if key y ∈ xs.map key then xs else xs ++ [y]) new := rfl

/-- **Adding elements only under new keys** appends the first elements of the keys that were not
there, in their order. -/
theorem addNew_eq (key : α → β) (xs new : List α) :
    addNew key xs new = xs ++ (firstsBy key new).filter fun y => key y ∉ xs.map key := by
  induction new generalizing xs with
  | nil => simp [addNew, firstsBy]
  | cons y rest ih =>
    rw [addNew_cons, ih, firstsBy]
    by_cases old : key y ∈ xs.map key
    · have narrower : ∀ z, (key z ∉ xs.map key ∧ key z ≠ key y) ↔ key z ∉ xs.map key :=
        fun z => ⟨And.left, fun absent => ⟨absent, fun same => absent (same ▸ old)⟩⟩
      rw [if_pos old, List.filter_cons_of_neg (by simpa using old), List.filter_filter]
      simp only [← Bool.decide_and, narrower]
    · have wider : ∀ z, key z ∉ (xs ++ [y]).map key ↔ key z ∉ xs.map key ∧ key z ≠ key y := by
        intro z
        simp only [List.map_append, List.map_cons, List.map_nil, List.mem_append,
          List.mem_singleton, not_or]
      rw [if_neg old, List.filter_cons_of_pos (by simpa using old), List.filter_filter]
      simp only [← Bool.decide_and, wider, List.append_assoc, List.singleton_append]

/-- Added to nothing, the first elements of all keys are left. -/
theorem addNew_nil_left (key : α → β) (new : List α) : addNew key [] new = firstsBy key new := by
  rw [addNew_eq, List.nil_append, List.filter_eq_self.mpr (by simp)]

theorem addNew_concat (key : α → β) (xs ys : List α) (y : α) :
    addNew key xs (ys ++ [y]) =
      if key y ∈ (addNew key xs ys).map key then addNew key xs ys else addNew key xs ys ++ [y] := by
  rw [addNew, List.foldl_append]
  rfl

/-- The keys are those that were there and those of the new elements. -/
theorem mem_keys_addNew_iff {key : α → β} {xs new : List α} {k : β} :
    k ∈ (addNew key xs new).map key ↔ k ∈ xs.map key ∨ k ∈ new.map key := by
  induction new generalizing xs with
  | nil => simp [addNew]
  | cons y rest ih =>
    rw [addNew_cons, ih, List.map_cons, List.mem_cons]
    split
    · rename_i old
      constructor
      · rintro (there | later)
        · exact .inl there
        · exact .inr (.inr later)
      · rintro (there | rfl | later)
        · exact .inl there
        · exact .inl old
        · exact .inr later
    · rw [List.map_append, List.mem_append, List.map_singleton, List.mem_singleton, or_assoc]

/-- Elements whose keys are all there change nothing. -/
theorem addNew_of_subset {key : α → β} {xs new : List α} (old : ∀ y ∈ new, key y ∈ xs.map key) :
    addNew key xs new = xs := by
  induction new with
  | nil => rfl
  | cons y rest ih =>
    obtain ⟨first, others⟩ := List.forall_mem_cons.mp old
    rw [addNew_cons, if_pos first, ih others]

/-- **Adding is associative**: a list to which others were added may itself be added, or the others
after it. -/
theorem addNew_addNew (key : α → β) (xs ys zs : List α) :
    addNew key xs (addNew key ys zs) = addNew key (addNew key xs ys) zs := by
  induction zs generalizing ys with
  | nil => rfl
  | cons z rest ih =>
    rw [addNew_cons, ih, addNew_cons]
    split
    · rename_i old
      rw [if_pos (mem_keys_addNew_iff.mpr (.inr old))]
    · rw [addNew_concat]

end Firsts

/-! ### Last values -/

section LastValues

variable {α β κ : Type} [DecidableEq κ] {place : α → Option κ} {value : α → β} {key : κ}
  {items : List α} {initial : Option β}

/-- What is at a key after items were put in their places one after another. -/
def lastValue (place : α → Option κ) (value : α → β) (key : κ) (items : List α)
    (initial : Option β) : Option β :=
  items.foldl (fun found item => if place item = some key then some (value item) else found)
    initial

theorem lastValue_of_forall_ne (elsewhere : ∀ item ∈ items, place item ≠ some key) :
    lastValue place value key items initial = initial := by
  induction items generalizing initial with
  | nil => rfl
  | cons item rest ih =>
    obtain ⟨first, others⟩ := List.forall_mem_cons.mp elsewhere
    rw [lastValue, List.foldl_cons, if_neg first]
    exact ih others

theorem exists_of_lastValue_eq_some {v : β}
    (found : lastValue place value key items none = some v) :
    ∃ item ∈ items, place item = some key := by
  cases Classical.em (∃ item ∈ items, place item = some key) with
  | inl here => exact here
  | inr nowhere =>
    rw [lastValue_of_forall_ne fun item mem same => nowhere ⟨item, mem, same⟩] at found
    cases found

/-- A value is at a key exactly when an item put it there and no later item goes there, or when it
was there before and no item goes there. -/
theorem lastValue_eq_some_iff {v : β} :
    lastValue place value key items initial = some v ↔
      (∃ before item after, items = before ++ item :: after ∧ place item = some key ∧
        value item = v ∧ ∀ later ∈ after, place later ≠ some key) ∨
      (initial = some v ∧ ∀ item ∈ items, place item ≠ some key) := by
  induction items generalizing initial with
  | nil => simp [lastValue]
  | cons first rest ih =>
    rw [lastValue, List.foldl_cons]
    refine ih.trans ?_
    constructor
    · rintro (⟨before, item, after, rfl, here, same, later⟩ | ⟨start, elsewhere⟩)
      · exact Or.inl ⟨first :: before, item, after, rfl, here, same, later⟩
      · by_cases here : place first = some key
        · rw [if_pos here] at start
          exact Or.inl ⟨[], first, rest, rfl, here, Option.some.inj start, elsewhere⟩
        · rw [if_neg here] at start
          exact Or.inr ⟨start, List.forall_mem_cons.mpr ⟨here, elsewhere⟩⟩
    · rintro (⟨before, item, after, split, here, same, later⟩ | ⟨start, elsewhere⟩)
      · cases before with
        | nil =>
          obtain ⟨rfl, rfl⟩ := List.cons.inj split
          rw [if_pos here, same]
          exact Or.inr ⟨rfl, later⟩
        | cons other before =>
          obtain ⟨-, rfl⟩ := List.cons.inj split
          exact Or.inl ⟨before, item, after, rfl, here, same, later⟩
      · obtain ⟨notHere, others⟩ := List.forall_mem_cons.mp elsewhere
        rw [if_neg notHere]
        exact Or.inr ⟨start, others⟩

/-- In distinct places every item stays. -/
theorem lastValue_of_mem {item : α} (distinct : items.Pairwise fun a b => place a ≠ place b)
    (mem : item ∈ items) (here : place item = some key) :
    lastValue place value key items initial = some (value item) := by
  induction items generalizing initial with
  | nil => cases mem
  | cons first rest ih =>
    obtain ⟨apart, others⟩ := List.pairwise_cons.mp distinct
    rw [lastValue, List.foldl_cons]
    rcases List.mem_cons.mp mem with rfl | later
    · rw [if_pos here]
      exact lastValue_of_forall_ne fun other otherMem same =>
        apart other otherMem (here.trans same.symm)
    · exact ih others later

end LastValues

/-! ### Maps -/

section Entries

variable {α β : Type} [DecidableEq α]

/-- Nothing is found under a key that is not there. -/
theorem findEntry_eq_none_iff {key : α} {entries : List (α × β)} :
    findEntry key entries = none ↔ key ∉ entries.map Prod.fst := by
  induction entries with
  | nil => simp [findEntry]
  | cons entry rest ih =>
    by_cases here : entry.1 = key
    · simp [findEntry, here]
    · simp [findEntry, here, ih, Ne.symm here]

/-- What is found under a key is the value of an entry with it, when the keys are distinct. -/
theorem findEntry_eq_some_iff {key : α} {value : β} {entries : List (α × β)}
    (distinct : (entries.map Prod.fst).Nodup) :
    findEntry key entries = some value ↔ (key, value) ∈ entries := by
  induction entries with
  | nil => simp [findEntry]
  | cons entry rest ih =>
    rw [List.map_cons, List.nodup_cons] at distinct
    obtain ⟨first, found⟩ := entry
    by_cases here : first = key
    · subst here
      have absent : (first, value) ∉ rest := fun mem => distinct.1 (List.mem_map.mpr ⟨_, mem, rfl⟩)
      simp [findEntry, absent, eq_comm]
    · simp [findEntry, here, ih distinct.2, Ne.symm here]

/-- A new key goes to the end with its value. -/
theorem putEntry_of_absent {key : α} {entries : List (α × β)}
    (absent : key ∉ entries.map Prod.fst) (value : β) :
    putEntry key value entries = entries ++ [(key, value)] := by
  induction entries with
  | nil => rfl
  | cons entry rest ih =>
    rw [List.map_cons, List.mem_cons, not_or] at absent
    rw [putEntry, if_neg (Ne.symm absent.1), ih absent.2, List.cons_append]

/-- An entry is as it was, or has just been written. -/
theorem mem_putEntry {key : α} {value : β} {entry : α × β} {entries : List (α × β)}
    (mem : entry ∈ putEntry key value entries) : entry ∈ entries ∨ entry = (key, value) := by
  induction entries with
  | nil => exact Or.inr (List.mem_singleton.mp mem)
  | cons first rest ih =>
    rw [putEntry] at mem
    split at mem
    · rcases List.mem_cons.mp mem with rfl | later
      · exact Or.inr rfl
      · exact Or.inl (List.mem_cons_of_mem _ later)
    · rcases List.mem_cons.mp mem with rfl | later
      · exact Or.inl List.mem_cons_self
      · exact (ih later).imp_left (List.mem_cons_of_mem _)

/-- Of the keys that are kept, an entry is written as if the others were not there; of another key
nothing is left. -/
theorem filter_putEntry (keep : α → Bool) (key : α) (value : β) (entries : List (α × β)) :
    (putEntry key value entries).filter (fun entry => keep entry.1) =
      if keep key then putEntry key value (entries.filter fun entry => keep entry.1)
      else entries.filter fun entry => keep entry.1 := by
  induction entries with
  | nil => cases kept : keep key <;> simp [putEntry, kept]
  | cons entry rest ih =>
    by_cases here : entry.1 = key
    · cases kept : keep key <;> simp [putEntry, here, kept]
    · cases keptHere : keep entry.1 <;> simp [putEntry, here, keptHere, ih]
      split <;> rfl

end Entries

namespace OrderedMap

variable {α β : Type} [DecidableEq α]

/-- Writing two lists of pairs one after the other is writing both at once. -/
theorem insertAll_append (m : OrderedMap α β) (pairs others : List (α × β)) :
    m.insertAll (pairs ++ others) = (m.insertAll pairs).insertAll others :=
  List.foldl_append

/-- The keys of written pairs go to the end, each at its first place, unless they are there. -/
theorem keys_insertAll (m : OrderedMap α β) (pairs : List (α × β)) :
    (m.insertAll pairs).keys = addNew id m.keys (pairs.map Prod.fst) := by
  induction pairs generalizing m with
  | nil => rfl
  | cons pair rest ih =>
    rw [List.map_cons, addNew_cons, List.map_id, id, ← keys_insert m pair.1 pair.2, ← ih]
    rfl

/-- The keys of a list of pairs, each at its first place. -/
theorem keys_ofList (pairs : List (α × β)) :
    (ofList pairs).keys = firstsBy id (pairs.map Prod.fst) :=
  (keys_insertAll empty pairs).trans (addNew_nil_left id _)

/-- A written key has its new value, and every other key the value it had. -/
theorem find?_insertAll (m : OrderedMap α β) {pairs : List (α × β)}
    (distinct : (pairs.map Prod.fst).Nodup) (key : α) :
    (m.insertAll pairs).find? key = (findEntry key pairs).or (m.find? key) := by
  induction pairs generalizing m with
  | nil => rfl
  | cons pair rest ih =>
    rw [List.map_cons, List.nodup_cons] at distinct
    have step : (m.insertAll (pair :: rest)).find? key =
        (findEntry key rest).or ((m.insert pair.1 pair.2).find? key) := ih _ distinct.2
    rw [step, find?_insert, findEntry]
    by_cases here : pair.1 = key
    · subst here
      simp [findEntry_eq_none_iff.mpr distinct.1]
    · rw [if_neg here, if_neg (Ne.symm here)]

/-- Pairs with new and distinct keys go to the end as they are. -/
theorem entries_insertAll (m : OrderedMap α β) {pairs : List (α × β)}
    (distinct : ((m.entries ++ pairs).map Prod.fst).Nodup) :
    (m.insertAll pairs).entries = m.entries ++ pairs := by
  induction pairs generalizing m with
  | nil => exact (List.append_nil _).symm
  | cons pair rest ih =>
    have absent : pair.1 ∉ m.entries.map Prod.fst := by
      rw [List.map_append, List.map_cons, List.nodup_append] at distinct
      exact fun mem => distinct.2.2 _ mem _ List.mem_cons_self rfl
    have written : (m.insert pair.1 pair.2).entries = m.entries ++ [pair] :=
      putEntry_of_absent absent pair.2
    have split : m.entries ++ pair :: rest = (m.insert pair.1 pair.2).entries ++ rest := by
      rw [written, List.append_assoc, List.singleton_append]
    rw [split] at distinct ⊢
    exact ih _ distinct

/-- The entries of a map write the map. -/
theorem ofList_entries (m : OrderedMap α β) : ofList m.entries = m :=
  ext ((entries_insertAll empty m.distinct).trans (List.nil_append _))

/-- Two maps with the same keys in the same order and the same values are the same. -/
theorem ext_of_find? {m n : OrderedMap α β} (keys : m.keys = n.keys)
    (values : ∀ key, m.find? key = n.find? key) : m = n := by
  obtain ⟨entries, distinct⟩ := m
  obtain ⟨others, distinct'⟩ := n
  refine ext ?_
  change entries.map Prod.fst = others.map Prod.fst at keys
  change ∀ key, findEntry key entries = findEntry key others at values
  change entries = others
  induction entries generalizing others with
  | nil => exact (List.map_eq_nil_iff.mp keys.symm).symm
  | cons entry rest ih =>
    cases others with
    | nil => cases keys
    | cons other others =>
      rw [List.map_cons, List.map_cons] at keys
      rw [List.map_cons, List.nodup_cons] at distinct distinct'
      obtain ⟨first, later⟩ := List.cons.inj keys
      have here : entry.2 = other.2 := by
        have found := values entry.1
        rw [findEntry, if_pos rfl, findEntry, if_pos first.symm] at found
        exact Option.some.inj found
      -- The first key is found in neither rest, every other one as in the whole.
      have below (key : α) : findEntry key rest = findEntry key others := by
        by_cases same : entry.1 = key
        · rw [findEntry_eq_none_iff.mpr (same ▸ distinct.1),
            findEntry_eq_none_iff.mpr (same ▸ first ▸ distinct'.1)]
        · have found := values key
          rwa [findEntry, if_neg same, findEntry, if_neg (first ▸ same)] at found
      rw [ih distinct.2 others distinct'.2 later below, Prod.ext first here]

/-- A map into which another was written may itself be written, or the other after it. -/
theorem insertAll_insertAll (m n p : OrderedMap α β) :
    m.insertAll (n.insertAll p.entries).entries =
      (m.insertAll n.entries).insertAll p.entries := by
  refine ext_of_find? ?_ fun key => ?_
  · have keys : (n.insertAll p.entries).entries.map Prod.fst = addNew id n.keys p.keys :=
      keys_insertAll n p.entries
    rw [keys_insertAll, keys_insertAll, keys_insertAll, keys]
    exact addNew_addNew id m.keys n.keys p.keys
  · rw [find?_insertAll _ (n.insertAll p.entries).distinct, find?_insertAll _ p.distinct,
      find?_insertAll _ n.distinct, ← Option.or_assoc]
    exact congrArg (fun value => Option.or value (m.find? key)) (find?_insertAll n p.distinct key)

/-- Writing the entries that are there changes nothing. -/
theorem insertAll_entries_self (m : OrderedMap α β) : m.insertAll m.entries = m := by
  refine ext_of_find? ?_ fun key => ?_
  · rw [keys_insertAll]
    exact addNew_of_subset fun key mem => List.mem_map.mpr ⟨key, mem, rfl⟩
  · rw [find?_insertAll _ m.distinct]
    exact Option.or_self

/-- Every entry of a map into which pairs were written was there or is one of the pairs. -/
theorem mem_insertAll {m : OrderedMap α β} {pairs : List (α × β)} {entry : α × β}
    (mem : entry ∈ (m.insertAll pairs).entries) : entry ∈ m.entries ∨ entry ∈ pairs := by
  induction pairs generalizing m with
  | nil => exact Or.inl mem
  | cons pair rest ih =>
    rcases ih mem with written | later
    · rcases mem_putEntry written with old | rfl
      · exact Or.inl old
      · exact Or.inr List.mem_cons_self
    · exact Or.inr (List.mem_cons_of_mem _ later)

/-- Writing the pairs of the keys that are kept writes what is left of the whole. -/
theorem entries_insertAll_filter (keep : α → Bool) {m n : OrderedMap α β}
    (left : n.entries = m.entries.filter fun entry => keep entry.1) (pairs : List (α × β)) :
    (n.insertAll (pairs.filter fun pair => keep pair.1)).entries =
      (m.insertAll pairs).entries.filter fun entry => keep entry.1 := by
  induction pairs generalizing m n with
  | nil => exact left
  | cons pair rest ih =>
    have written : (m.insert pair.1 pair.2).entries.filter (fun entry => keep entry.1) =
        if keep pair.1 then putEntry pair.1 pair.2 n.entries else n.entries := by
      rw [left]
      exact filter_putEntry keep pair.1 pair.2 m.entries
    cases kept : keep pair.1 with
    | true =>
      rw [List.filter_cons_of_pos (by simpa using kept)]
      refine ih (n := n.insert pair.1 pair.2) ?_
      rw [written, kept, if_pos rfl]
      rfl
    | false =>
      rw [List.filter_cons_of_neg (by simp [kept])]
      refine ih ?_
      rw [written, kept, if_neg Bool.false_ne_true]

/-- **Reading fewer pairs**: the pairs of the keys that are kept give the entries of the whole with
those keys, in their order. -/
theorem entries_ofList_filter (keep : α → Bool) (pairs : List (α × β)) :
    (ofList (pairs.filter fun pair => keep pair.1)).entries =
      (ofList pairs).entries.filter fun entry => keep entry.1 :=
  entries_insertAll_filter keep (m := empty) (n := empty) rfl pairs

theorem mem_of_mem_ofList {pairs : List (α × β)} {entry : α × β}
    (mem : entry ∈ (ofList pairs).entries) : entry ∈ pairs :=
  (mem_insertAll mem).resolve_left List.not_mem_nil

/-- What is found in a map that a list of items wrote is the last value of the key. -/
theorem find?_ofList_filterMap {ι : Type} (place : ι → Option α) (value : ι → β)
    (items : List ι) (key : α) :
    (ofList (items.filterMap fun item => (place item).map fun key => (key, value item))).find? key =
      lastValue place value key items none := by
  have general (m : OrderedMap α β) :
      (m.insertAll (items.filterMap fun item =>
          (place item).map fun key => (key, value item))).find? key =
        lastValue place value key items (m.find? key) := by
    induction items generalizing m with
    | nil => rfl
    | cons item rest ih =>
      rw [lastValue, List.foldl_cons]
      cases here : place item with
      | none =>
        rw [List.filterMap_cons_none (by simp [here]), if_neg (by simp)]
        exact ih m
      | some k =>
        rw [List.filterMap_cons_some (b := (k, value item)) (by simp [here])]
        refine (ih (m.insert k (value item))).trans ?_
        rw [find?_insert]
        by_cases same : key = k
        · simp [same, lastValue]
        · simp [same, Ne.symm same, lastValue]
  exact general empty

end OrderedMap

end EsmBundle
