/-!
Maps that remember the order in which their keys were first given.

A map is a list of pairs with distinct keys. Writing a key that is there changes
its value and moves nothing; a new key goes to the end. So a list of pairs read
into a map keeps the first place and the last value of every key.
-/

namespace EsmBundle

/-! ### Lists of pairs -/

section Entries

variable {α β : Type} [DecidableEq α]

/-- Writes a value under a key: in place when the key is there, at the end otherwise. -/
def putEntry (key : α) (value : β) : List (α × β) → List (α × β)
  | [] => [(key, value)]
  | entry :: rest =>
    if entry.1 = key then (key, value) :: rest else entry :: putEntry key value rest

/-- The value under a key. -/
def findEntry (key : α) : List (α × β) → Option β
  | [] => none
  | entry :: rest => if entry.1 = key then some entry.2 else findEntry key rest

/-- A key that is there keeps its place; a new one goes to the end. -/
theorem keys_putEntry (key : α) (value : β) (entries : List (α × β)) :
    (putEntry key value entries).map Prod.fst =
      if key ∈ entries.map Prod.fst then entries.map Prod.fst
      else entries.map Prod.fst ++ [key] := by
  induction entries with
  | nil => simp [putEntry]
  | cons entry rest ih =>
    by_cases h : entry.1 = key
    · simp [putEntry, h]
    · by_cases mem : key ∈ rest.map Prod.fst <;> simp_all [putEntry, eq_comm]

/-- Writing keeps the keys distinct. -/
theorem nodup_keys_putEntry {key : α} {value : β} {entries : List (α × β)}
    (distinct : (entries.map Prod.fst).Nodup) :
    ((putEntry key value entries).map Prod.fst).Nodup := by
  rw [keys_putEntry]
  split
  · exact distinct
  · rename_i absent
    refine List.nodup_append.2 ⟨distinct, by simp, ?_⟩
    rintro a mem b one rfl
    exact absent ((List.mem_singleton.1 one) ▸ mem)

/-- The written value is found under its key, and every other key is undisturbed. -/
theorem findEntry_putEntry (key other : α) (value : β) (entries : List (α × β)) :
    findEntry other (putEntry key value entries) =
      if other = key then some value else findEntry other entries := by
  induction entries with
  | nil => grind [putEntry, findEntry]
  | cons entry rest ih => grind [putEntry, findEntry]

/-- An earlier entry of a key is found before a later one. -/
theorem findEntry_append (key : α) (before after : List (α × β)) :
    findEntry key (before ++ after) = (findEntry key before).or (findEntry key after) := by
  induction before with
  | nil => rfl
  | cons entry rest ih => grind [findEntry]

/-- Without the entries of a key, nothing is found under it and all else as before. -/
theorem findEntry_filter_ne (key other : α) (entries : List (α × β)) :
    findEntry other (entries.filter fun item => item.1 ≠ key) =
      if other = key then none else findEntry other entries := by
  induction entries with
  | nil => simp [findEntry]
  | cons entry rest ih => grind [findEntry]

end Entries

/-! ### Maps -/

/-- Keys with values, in the order in which the keys were first given. -/
structure OrderedMap (α β : Type) where
  entries : List (α × β)
  distinct : (entries.map Prod.fst).Nodup

namespace OrderedMap

variable {α β : Type}

/-- Two maps with the same entries in the same order are the same. -/
@[ext]
theorem ext {m n : OrderedMap α β} (h : m.entries = n.entries) : m = n := by
  cases m
  cases n
  simpa using h

/-- The map without keys. -/
def empty : OrderedMap α β := ⟨[], by simp⟩

instance : Inhabited (OrderedMap α β) := ⟨empty⟩

/-- The keys in order. -/
def keys (m : OrderedMap α β) : List α :=
  m.entries.map Prod.fst

/-- A map without keys. -/
def isEmpty (m : OrderedMap α β) : Bool :=
  m.entries.isEmpty

variable [DecidableEq α]

/-- The value under a key. -/
def find? (m : OrderedMap α β) (key : α) : Option β :=
  findEntry key m.entries

/-- Writes a value under a key. -/
def insert (m : OrderedMap α β) (key : α) (value : β) : OrderedMap α β :=
  ⟨putEntry key value m.entries, nodup_keys_putEntry m.distinct⟩

/-- Writes every pair of a list, in order. -/
def insertAll (m : OrderedMap α β) (pairs : List (α × β)) : OrderedMap α β :=
  pairs.foldl (fun m pair => m.insert pair.1 pair.2) m

/-- The map that a list of pairs writes. -/
def ofList (pairs : List (α × β)) : OrderedMap α β :=
  empty.insertAll pairs

@[simp]
theorem find?_insert (m : OrderedMap α β) (key other : α) (value : β) :
    (m.insert key value).find? other = if other = key then some value else m.find? other :=
  findEntry_putEntry key other value m.entries

theorem keys_insert (m : OrderedMap α β) (key : α) (value : β) :
    (m.insert key value).keys = if key ∈ m.keys then m.keys else m.keys ++ [key] :=
  keys_putEntry key value m.entries

end OrderedMap

end EsmBundle
