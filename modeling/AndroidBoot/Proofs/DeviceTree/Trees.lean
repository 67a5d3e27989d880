import AndroidBoot.DeviceTree.Property

/-!
# Device trees and their blobs

A tree as such, apart from its bytes: the contents of a node are properties and nodes in any order.
`Encodes names c bs` says that `bs` are tokens of the contents `c`, where `names` holds the names of
the properties; tokens that say nothing may stand anywhere between the others. `IsBlob` says where
a blob has the two blocks.

    c.valueAt parts name = the first property of c, in document order, that has this name and
      stands in a node whose chain of names below the root is named by `parts`
-/

namespace AndroidBoot.DeviceTree

/-- What is in a node: properties and nodes, in any order. -/
inductive Contents where
  | nil
  | property (name value : Bytes) (rest : Contents)
  | node (name : Bytes) (inside rest : Contents)

/-! ## Looking up -/

/-- Whether a part of a path names a node: in full or, if it states no address, without the address
that the node has behind an at sign. -/
def Named (node part : Bytes) : Prop :=
  node = part ∨ (atSign ∉ part ∧ ∃ address, node = part ++ atSign :: address)

/-- Whether the parts of a path name the nodes of a chain, one by one. -/
def Leads : List Bytes → List Bytes → Prop
  | [], [] => True
  | part :: parts, node :: chain => Named node part ∧ Leads parts chain
  | _, _ => False

/-- A property with the names of the nodes above it, from below the root on. -/
structure Occurrence where
  chain : List Bytes
  name : Bytes
  value : Bytes
deriving DecidableEq, Repr

namespace Contents

/-- The properties in document order, in a node that lies at the end of `chain`. -/
def occurrences (chain : List Bytes) : Contents → List Occurrence
  | nil => []
  | property name value rest => ⟨chain, name, value⟩ :: rest.occurrences chain
  | node name inside rest => inside.occurrences (chain ++ [name]) ++ rest.occurrences chain

end Contents

/-! ## Tokens -/

/-- `n` tokens that say nothing. -/
def nops : Nat → Bytes
  | 0 => []
  | n + 1 => Bytes.ofWordBE 4 ++ nops n

/-- The token that begins a node; `pad` fills it up to the next one. -/
def beginToken (name pad : Bytes) : Bytes := Bytes.ofWordBE 1 ++ (name ++ 0 :: pad)

/-- The token of a property whose name stands at `nameOffset` in the block of names. -/
def propertyToken (size nameOffset : UInt32) (value pad : Bytes) : Bytes :=
  Bytes.ofWordBE 3 ++ (Bytes.ofWordBE size ++ (Bytes.ofWordBE nameOffset ++ (value ++ pad)))

/-- Whether `pad` fills a part of `length` bytes up to where tokens start. -/
def Fills (pad : Bytes) (length : Nat) : Prop := pad.length = padding length tokenAlignment

/-- The tokens of the contents of a node. -/
inductive Encodes (names : Bytes) : Contents → Bytes → Prop where
  | nil (n : Nat) : Encodes names .nil (nops n)
  | property {name value pad after bs : Bytes} {size nameOffset : UInt32} {rest : Contents}
      (n : Nat) (hsize : size.toNat = value.length) (hpad : Fills pad value.length)
      (hname : 0 ∉ name)
      (hnames : names.drop nameOffset.toNat = name ++ 0 :: after) (hrest : Encodes names rest bs) :
      Encodes names (.property name value rest)
        (nops n ++ (propertyToken size nameOffset value pad ++ bs))
  | node {name pad bs cs : Bytes} {inside rest : Contents} (n : Nat)
      (hname : 0 ∉ name) (hpad : Fills pad (name.length + 1))
      (hinside : Encodes names inside bs) (hrest : Encodes names rest cs) :
      Encodes names (.node name inside rest)
        (nops n ++ (beginToken name pad ++ (bs ++ (Bytes.ofWordBE 2 ++ cs))))

/-- A tree with a root and these contents in the root, from the first token to the last. -/
inductive EncodesTree (names : Bytes) (c : Contents) : Bytes → Prop where
  | tree {root pad bs after : Bytes} (n m : Nat) (hroot : 0 ∉ root)
      (hpad : Fills pad (root.length + 1)) (hinside : Encodes names c bs) :
      EncodesTree names c (nops n ++ (beginToken root pad ++ (bs ++ (Bytes.ofWordBE 2 ++
        (nops m ++ (Bytes.ofWordBE 9 ++ after))))))

/-- A blob of version 17 with a block of tokens and a block of names, which may lie anywhere. -/
structure IsBlob (h : Header) (tokens names data : Bytes) : Prop where
  front : ∃ after, data = Header.codec.encode h ++ after
  magic_eq : h.magic = magic
  version_eq : h.version = 17
  compatible : h.lastCompatible ≤ 17
  total : h.totalSize.toNat = data.length
  tokens_eq : Bytes.slice? data h.tokensOffset.toNat (h.tokensOffset.toNat + h.tokensSize.toNat)
    = some tokens
  names_eq : Bytes.slice? data h.namesOffset.toNat (h.namesOffset.toNat + h.namesSize.toNat)
    = some names

/-! ## Lemmas -/

theorem isNamedBy_iff {node part : Bytes} : isNamedBy node part = true ↔ Named node part := by
  unfold isNamedBy Named
  rw [Bool.or_eq_true, Bool.and_eq_true, Bool.not_eq_true', beq_iff_eq, beq_iff_eq]
  constructor
  · rintro (h | ⟨hpart, htake⟩)
    · exact .inl h
    · have hsplit := List.takeWhile_append_dropWhile (p := (· != atSign)) (l := node)
      rw [htake] at hsplit
      cases hdrop : node.dropWhile (· != atSign) with
      | nil =>
        rw [hdrop, List.append_nil] at hsplit
        exact .inl hsplit.symm
      | cons b address =>
        -- what ends the part is an at sign
        have hb : b = atSign := by
          have := List.head_dropWhile_not (p := (· != atSign)) (l := node) (by rw [hdrop]; simp)
          simpa [hdrop] using this
        refine .inr ⟨by simpa using hpart, address, ?_⟩
        rw [← hsplit, hdrop, hb]
  · rintro (h | ⟨hpart, address, rfl⟩)
    · exact .inl h
    · refine .inr ⟨by simpa using hpart, ?_⟩
      rw [List.takeWhile_append_of_pos, List.takeWhile_cons_of_neg (by simp), List.append_nil]
      intro b hb
      have : b ≠ atSign := fun h => hpart (h ▸ hb)
      simpa using this

instance (node part : Bytes) : Decidable (Named node part) := decidable_of_iff _ isNamedBy_iff

instance decidableLeads : (parts chain : List Bytes) → Decidable (Leads parts chain)
  | [], [] => isTrue trivial
  | _ :: parts, _ :: chain =>
    have := decidableLeads parts chain
    inferInstanceAs (Decidable (_ ∧ _))
  | [], _ :: _ => isFalse id
  | _ :: _, [] => isFalse id

/-- The value of the first of some properties that has this name and stands in a node at a path. -/
def wanted (parts : List Bytes) (name : Bytes) (os : List Occurrence) : Option Bytes :=
  (os.find? fun o => Leads parts o.chain ∧ o.name = name).map (·.value)

/-- The value of the first property in document order that has this name and stands in a node at a
path. -/
def Contents.valueAt (c : Contents) (parts : List Bytes) (name : Bytes) : Option Bytes :=
  wanted parts name (c.occurrences [])

theorem wanted_cons (parts : List Bytes) (name : Bytes) (o : Occurrence) (os : List Occurrence) :
    wanted parts name (o :: os) =
      if Leads parts o.chain ∧ o.name = name then some o.value else wanted parts name os := by
  unfold wanted
  rw [List.find?_cons]
  by_cases h : Leads parts o.chain ∧ o.name = name
  · rw [decide_eq_true h, if_pos h]
    rfl
  · rw [decide_eq_false h, if_neg h]

theorem wanted_append (parts : List Bytes) (name : Bytes) (os os' : List Occurrence) :
    wanted parts name (os ++ os') = (wanted parts name os).or (wanted parts name os') := by
  unfold wanted
  rw [List.find?_append, Option.map_or]

end AndroidBoot.DeviceTree
