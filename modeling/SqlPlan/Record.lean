/-!
# Records

A record holds one value for each of its keys.  Keys that are array indices
come first, in numeric order; the others follow in the order in which they
were first given.  Giving a key again changes its value and not its place.
-/

namespace SqlPlan

/-- Entries in key order, no key twice. -/
structure Record (α : Type) where
  entries : List (String × α)
  distinct : (entries.map Prod.fst).Nodup

namespace Record

variable {α : Type}

/-- The keys `0` to `4294967294` in their plain decimal spelling. -/
def index? (key : String) : Option Nat :=
  let chars := key.toList
  if chars.length ≤ 10 ∧ chars ≠ [] ∧ chars.all Char.isDigit then
    let value := chars.foldl (fun total char => total * 10 + (char.toNat - '0'.toNat)) 0
    if value < 4294967295 ∧ (chars.head? ≠ some '0' ∨ chars = ['0']) then some value else none
  else
    none

/-- Whether a new key goes before an old one. -/
def precedes (new old : String) : Bool :=
  match index? new, index? old with
  | some new, some old => new < old
  | some _, none => true
  | none, _ => false

/-- Sets the value of a key, which takes its place when it is new. -/
def insertEntry (key : String) (value : α) : List (String × α) → List (String × α)
  | [] => [(key, value)]
  | (old, held) :: rest =>
      if key = old then (old, value) :: rest
      else if precedes key old ∧ key ∉ rest.map Prod.fst then (key, value) :: (old, held) :: rest
      else (old, held) :: insertEntry key value rest

theorem mem_keys_insertEntry (key : String) (value : α) (entries : List (String × α))
    (other : String) :
    other ∈ (insertEntry key value entries).map Prod.fst ↔
      other = key ∨ other ∈ entries.map Prod.fst := by
  induction entries with
  | nil => simp [insertEntry]
  | cons entry rest ih =>
      obtain ⟨old, held⟩ := entry
      simp only [insertEntry]
      split
      · rename_i equal
        subst equal
        simp
      · split
        · simp
        · simp only [List.map_cons, List.mem_cons, ih]
          constructor
          · rintro (here | here | here) <;> simp [here]
          · rintro (here | here | here) <;> simp [here]

theorem nodup_insertEntry (key : String) (value : α) {entries : List (String × α)}
    (distinct : (entries.map Prod.fst).Nodup) :
    ((insertEntry key value entries).map Prod.fst).Nodup := by
  induction entries with
  | nil => simp [insertEntry]
  | cons entry rest ih =>
      obtain ⟨old, held⟩ := entry
      simp only [List.map_cons, List.nodup_cons] at distinct
      simp only [insertEntry]
      split
      · simpa using distinct
      · rename_i different
        split
        · rename_i placed
          simp only [List.map_cons, List.nodup_cons, List.mem_cons, not_or]
          exact ⟨⟨different, placed.2⟩, distinct⟩
        · simp only [List.map_cons, List.nodup_cons]
          refine ⟨?_, ih distinct.2⟩
          rw [mem_keys_insertEntry]
          rintro (equal | member)
          · exact different equal.symm
          · exact distinct.1 member

def empty : Record α := ⟨[], List.nodup_nil⟩

def insert (record : Record α) (key : String) (value : α) : Record α :=
  ⟨insertEntry key value record.entries, nodup_insertEntry key value record.distinct⟩

theorem nodup_keys_filter (keep : String × α → Bool) {entries : List (String × α)}
    (distinct : (entries.map Prod.fst).Nodup) :
    ((entries.filter keep).map Prod.fst).Nodup :=
  distinct.sublist (List.filter_sublist.map Prod.fst)

def erase (record : Record α) (key : String) : Record α :=
  ⟨record.entries.filter (fun entry => entry.1 != key), nodup_keys_filter _ record.distinct⟩

/-- The record of a list of pairs, given in order. -/
def ofList (pairs : List (String × α)) : Record α :=
  pairs.foldl (fun record (key, value) => record.insert key value) empty

def keys (record : Record α) : List String := record.entries.map Prod.fst

def get? (record : Record α) (key : String) : Option α := record.entries.lookup key

end Record

end SqlPlan
