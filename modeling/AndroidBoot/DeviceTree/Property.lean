import AndroidBoot.DeviceTree.Blob
import AndroidBoot.Number.Rounding
import AndroidBoot.Text.Blank
import AndroidBoot.Text.Utf8

/-!
# Properties of device trees

The token block is the tree in document order: nodes begin and end, properties stand in between.
`lookup` walks over it with the depth of the current node and the length of the longest part of
the path that its chain of parents matches.

    t.lookup path name = .ok (some v)   the first property with this name in a node at this path
    a block of n bytes holds at most n / 4 tokens
-/

namespace AndroidBoot.DeviceTree

inductive Token where
  | beginNode (name : Bytes)
  | endNode
  /-- A property: where its name lies in the block of names, and its value. -/
  | property (nameOffset : Nat) (value : Bytes)
  | nop
  | stop
deriving DecidableEq, Repr

/-- Tokens start at multiples of this. -/
def tokenAlignment : Nat := 4

def align (n : Nat) : Nat := n + padding n tokenAlignment

/-- The word at the front of `rest`. -/
def readWord (rest : Bytes) (part : String) : Except DeviceTreeError UInt32 :=
  match Codec.wordBE.decode? rest with
  | some n => .ok n
  | none => .error (.truncated part)

/-- The text before the first zero in `rest`. -/
def readName (rest : Bytes) (part : String) : Except DeviceTreeError Bytes :=
  if rest.contains 0 then .ok (rest.takeWhile (· != 0)) else .error (.truncated part)

/-- The token at the front of `rest`, which is what is left of the block from `offset` on, and its
size. -/
def readToken (offset : Nat) (rest : Bytes) : Except DeviceTreeError (Token × Nat) := do
  let code ← readWord rest "token"
  match code.toNat with
  | 1 =>
    let name ← readName (rest.drop 4) "node name"
    return (.beginNode name, align (4 + name.length + 1))
  | 2 => return (.endNode, 4)
  | 3 =>
    let size ← readWord (rest.drop 4) "property length"
    let nameOffset ← readWord (rest.drop 8) "property name"
    match Bytes.slice? rest 12 (12 + size.toNat) with
    | some value => return (.property nameOffset.toNat value, align (12 + size.toNat))
    | none => throw (.truncated "property value")
  | 4 => return (.nop, 4)
  | 9 => return (.stop, 4)
  | _ => throw (.unknownToken code offset)

/-! ## Paths -/

/-- The at sign, behind which the name of a node has the address of a unit. -/
def atSign : UInt8 := 0x40

/-- Whether a part of a path names a node: in full or, if it states no address, without one. -/
def isNamedBy (node part : Bytes) : Bool :=
  node == part || (!part.contains atSign && node.takeWhile (· != atSign) == part)

/-- The non-empty parts of a path between its slashes. -/
def pathParts (path : String) : List Bytes :=
  ((splitAtChars (· == '/') path.toList).filter (!·.isEmpty)).map Utf8.encodeChars

/-- Where a walk stands: how many nodes are open, and how many of those below the root match the
path from its start on. -/
structure Position where
  depth : Nat
  matched : Nat
deriving DecidableEq, Repr

namespace Position

def start : Position := ⟨0, 0⟩

/-- Enters a node. It matches if its parent is the last that did and the next part names it. -/
def enter (p : Position) (parts : List Bytes) (node : Bytes) : Position :=
  if p.depth = p.matched + 1 ∧ (parts[p.matched]?).any (isNamedBy node) then
    ⟨p.depth + 1, p.matched + 1⟩
  else ⟨p.depth + 1, p.matched⟩

/-- Leaves a node. -/
def leave (p : Position) : Position :=
  if 2 ≤ p.depth ∧ p.matched = p.depth - 1 then ⟨p.depth - 1, p.matched - 1⟩
  else ⟨p.depth - 1, p.matched⟩

/-- Whether the current node is the one the path leads to. -/
def atTarget (p : Position) (parts : List Bytes) : Bool :=
  p.matched == parts.length && p.depth == p.matched + 1

end Position

/-- Walks over at most `count` tokens, of which `rest` holds no more. -/
def search (names : Bytes) (parts : List Bytes) (name : Bytes) :
    Nat → Nat → Bytes → Position → Except DeviceTreeError (Option Bytes)
  | 0, _, _, _ => .error (.truncated "token")
  | count + 1, offset, rest, p => do
    let (token, size) ← readToken offset rest
    let next := search names parts name count (offset + size) (rest.drop size)
    match token with
    | .beginNode node => next (p.enter parts node)
    | .endNode => if p.depth = 0 then throw (.surplusEnd offset) else next p.leave
    | .property nameOffset value =>
      if p.atTarget parts then
        if (← readName (names.drop nameOffset) "property name") = name then return some value
        else next p
      else next p
    | .nop => next p
    | .stop => return none

/-- The value of the property `name` of the node at `path`, if there is one. -/
def lookup (t : DeviceTree) (path name : String) : Except DeviceTreeError (Option Bytes) :=
  search t.names (pathParts path) (Utf8.encode name) (t.tokens.length / 4) 0 t.tokens .start

/-- The 64-bit cells of a value; bytes that are left over are passed over. -/
def cells (value : Bytes) : List UInt64 := Codec.longBE.readMany (value.length / 8) value

end AndroidBoot.DeviceTree
