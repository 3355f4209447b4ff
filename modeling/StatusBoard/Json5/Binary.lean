import StatusBoard.Json5.Node
set_option autoImplicit false

/-!
# Json5: reading bytes

Bytes hold a value as an element: a kind and a size, then as many bytes as the size says.  A container's
bytes are elements again.  `Node.ofBytes?` reads bytes that are one element as a whole; what makes no sense
within them becomes a damaged node, and nothing after it is read if its end is not known.
-/

namespace StatusBoard.Json5

/-- The number that some bytes write, the first byte counting most. -/
def numberOfBytes (bytes : List UInt8) : Nat :=
  bytes.foldl (fun n b => n * 256 + b.toNat) 0

/-- The size that the first byte of an element announces, after what follows that byte: it is a number up
to eleven, or is itself written in one, two, four or eight bytes. -/
def takeSize? (announced : Nat) (s : List UInt8) : Option (Nat × List UInt8) :=
  let written (n : Nat) : Option (Nat × List UInt8) :=
    if n ≤ s.length then some (numberOfBytes (s.take n), s.drop n) else none
  match announced with
  | 12 => written 1
  | 13 => written 2
  | 14 => written 4
  | 15 => (written 8).filter fun (size, _) => size < UInt32.size
  | n => some (n, s)

theorem length_takeSize?_le {announced size : Nat} {s rest : List UInt8}
    (h : takeSize? announced s = some (size, rest)) : rest.length ≤ s.length := by
  have hwritten (n m : Nat) (r : List UInt8)
      (h : (if n ≤ s.length then some (numberOfBytes (s.take n), s.drop n) else none) = some (m, r)) :
      r.length ≤ s.length := by
    split at h
    · cases h
      simp
    · cases h
  unfold takeSize? at h
  dsimp only at h
  split at h
  · exact hwritten _ _ _ h
  · exact hwritten _ _ _ h
  · exact hwritten _ _ _ h
  · exact hwritten _ _ _ (Option.filter_eq_some_iff.1 h).1
  · cases h
    exact Nat.le_refl _

/-- An element: the number of its kind, its bytes, and the bytes after it. -/
structure Element where
  kind : Nat
  payload : List UInt8
  rest : List UInt8

/-- The element at the start of some bytes, unless it is cut short. -/
def takeElement? (bytes : List UInt8) :
    Option { e : Element // e.payload.length < bytes.length ∧ e.rest.length < bytes.length } :=
  match bytes with
  | [] => none
  | b :: s =>
    match h : takeSize? (b.toNat / 16) s with
    | none => none
    | some (size, s') =>
      have hle := length_takeSize?_le h
      if size ≤ s'.length then
        some ⟨⟨b.toNat % 16, s'.take size, s'.drop size⟩, by
          simp only [List.length_take, List.length_drop, List.length_cons]
          omega⟩
      else none

/-- The characters of some bytes; bytes that are no text count one by one. -/
def charsOfBytes (bytes : List UInt8) : List Char :=
  match String.fromUTF8? ⟨bytes.toArray⟩ with
  | some s => s.toList
  | none => bytes.map fun b => Char.ofNat b.toNat

/-- The members of an object, given names and values in turn. -/
def membersOf : List Node → List (Node × Node)
  | [] => []
  | [_] => [(.damaged false, .damaged false)]
  | name :: value :: rest => (name, value) :: membersOf rest

/-- The value of an element that is no container. -/
def nodeOfKind (kind : Nat) (payload : List UInt8) : Node :=
  let word (node : Node) : Node := if payload.isEmpty then node else .damaged true
  let written := charsOfBytes payload
  match kind with
  | 0 => word .null
  | 1 => word (.bool true)
  | 2 => word (.bool false)
  | 3 => .number .whole written
  | 4 => .number .hexadecimal written
  | 5 => .number .fraction written
  | 6 => .number .barePoint written
  | 7 => .text .plain written
  | 8 => .text .escaped written
  | 9 => .text .relaxed written
  | 10 => .text .literal written
  | _ => .damaged false

/-- The values of the elements that some bytes hold. -/
def nodesOfBytes (bytes : List UInt8) : List Node :=
  match takeElement? bytes with
  | none => if bytes.isEmpty then [] else [.damaged false]
  | some e =>
    if e.1.kind = 11 then .array (nodesOfBytes e.1.payload) :: nodesOfBytes e.1.rest
    else if e.1.kind = 12 then .object (membersOf (nodesOfBytes e.1.payload)) :: nodesOfBytes e.1.rest
    else match nodeOfKind e.1.kind e.1.payload with
      | .damaged false => [.damaged false]
      | node => node :: nodesOfBytes e.1.rest
termination_by bytes.length
decreasing_by
  · exact e.2.1
  · exact e.2.2
  · exact e.2.1
  · exact e.2.2
  · exact e.2.2

/-- The value of bytes that are one element as a whole. -/
def Node.ofBytes? (bytes : List UInt8) : Option Node :=
  match nodesOfBytes bytes with
  | [.damaged _] => none
  | [node] => some node
  | _ => none

end StatusBoard.Json5
