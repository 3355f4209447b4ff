set_option autoImplicit false

/-!
# Dict: entries kept by key

Labels, kinds and the members of opaque objects are kept in byte order of their keys, each key once, the
last value given to it winning.  A `Dict` is a list of pairs in that order; `insert` keeps it.  Sets of
names are lists of texts under the same rule.
-/

namespace StatusBoard

/-- Entries in byte order of their keys. -/
abbrev Dict (α : Type) := List (String × α)

namespace Dict

variable {α : Type}

/-- The entries with a key given a value, in the place of its old one if it had one. -/
def insert (d : Dict α) (key : String) (value : α) : Dict α :=
  match d with
  | [] => [(key, value)]
  | (k, v) :: rest =>
    if key < k then (key, value) :: (k, v) :: rest
    else if key = k then (key, value) :: rest
    else (k, v) :: Dict.insert rest key value

/-- The entries of pairs in any order; of several values of a key the last stays. -/
def ofPairs (pairs : List (String × α)) : Dict α :=
  pairs.foldl (fun d p => Dict.insert d p.1 p.2) []

/-- The value of a key. -/
def get? (d : Dict α) (key : String) : Option α :=
  (d.find? fun p => p.1 = key).map (·.2)

/-- The keys, in order. -/
def keys (d : Dict α) : List String :=
  d.map (·.1)

/-- The keys rise strictly. -/
def Sorted (d : Dict α) : Prop :=
  d.Pairwise fun p q => p.1 < q.1

end Dict

namespace NameSet

/-- The set with a name added. -/
def insert (s : List String) (name : String) : List String :=
  match s with
  | [] => [name]
  | x :: rest =>
    if name < x then name :: x :: rest
    else if name = x then x :: rest
    else x :: NameSet.insert rest name

/-- The set of names in a list, in byte order and without repeats. -/
def ofList (names : List String) : List String :=
  names.foldl NameSet.insert []

/-- The names rise strictly. -/
def Sorted (s : List String) : Prop :=
  s.Pairwise (· < ·)

end NameSet

/-- The first name that occurs earlier in the list as well. -/
def firstRepeat? : (names : List String) → (seen : List String) → Option String
  | [], _ => none
  | name :: rest, seen => if name ∈ seen then some name else firstRepeat? rest (name :: seen)

end StatusBoard
