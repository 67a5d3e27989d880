import AndroidBoot.Proofs.DeviceTree.Paths
import AndroidBoot.Proofs.DeviceTree.Trees
import AndroidBoot.Proofs.DeviceTree.Walks

/-!
# Looking up in the tree

A walk knows the chain of nodes that it stands in by two numbers only. They are enough: `along parts
chain` is the position that any walk has in a node at the end of `chain`, whatever it has passed
before, and it is at the target exactly if the path leads there.

    (along parts chain).enter parts node = along parts (chain ++ [node])        (enter_along)
    (along parts (chain ++ [node])).leave = along parts chain                   (leave_along)
    walk … (tokens of c ++ rest) (along parts chain) = .ok of the first property that is looked
      for, or the walk over the rest if c has none                              (walk_of_encodes)
    HasComponents path.toList parts → t.lookup path name = .ok (c.valueAt (parts in UTF-8) …)
                                                                          (lookup_of_hasComponents)
-/

namespace AndroidBoot.DeviceTree

/-- How many parts of a path name the nodes of a chain, from the first on. -/
def matched : List Bytes → List Bytes → Nat
  | part :: parts, node :: chain => if isNamedBy node part then matched parts chain + 1 else 0
  | _, _ => 0

/-- The position in a node at the end of a chain. -/
def along (parts chain : List Bytes) : Position := ⟨chain.length + 1, matched parts chain⟩

/-! ## Positions -/

theorem matched_le (parts chain : List Bytes) : matched parts chain ≤ chain.length := by
  induction parts generalizing chain with
  | nil => simp [matched]
  | cons part parts ih =>
    cases chain with
    | nil => simp [matched]
    | cons node chain =>
      have := ih chain
      rw [matched, List.length_cons]
      split <;> omega

theorem matched_concat (parts chain : List Bytes) (node : Bytes) :
    matched parts (chain ++ [node]) =
      if matched parts chain = chain.length ∧ (parts[matched parts chain]?).any (isNamedBy node)
      then matched parts chain + 1
      else matched parts chain := by
  induction parts generalizing chain with
  | nil => simp [matched]
  | cons part parts ih =>
    cases chain with
    | nil => simp [matched]
    | cons head chain =>
      rw [List.cons_append, matched, matched, ih chain]
      by_cases hhead : isNamedBy head part
      · rw [if_pos hhead, if_pos hhead, List.length_cons, List.getElem?_cons_succ]
        by_cases h : matched parts chain = chain.length ∧
          (parts[matched parts chain]?).any (isNamedBy node)
        · rw [if_pos h, if_pos ⟨by omega, h.2⟩]
        · rw [if_neg h, if_neg fun h' => h ⟨by omega, h'.2⟩]
      · rw [if_neg hhead, if_neg hhead, List.length_cons, if_neg fun h => by omega]

theorem enter_along (parts chain : List Bytes) (node : Bytes) :
    (along parts chain).enter parts node = along parts (chain ++ [node]) := by
  unfold along Position.enter
  rw [matched_concat, List.length_append]
  simp only []
  by_cases h : matched parts chain = chain.length ∧
    (parts[matched parts chain]?).any (isNamedBy node)
  · rw [if_pos h, if_pos ⟨by omega, h.2⟩]
    rfl
  · rw [if_neg h, if_neg fun h' => h ⟨by omega, h'.2⟩]
    rfl

/-- Leaving a node undoes entering it. -/
theorem leave_along (parts chain : List Bytes) (node : Bytes) :
    (along parts (chain ++ [node])).leave = along parts chain := by
  have hle := matched_le parts chain
  unfold along Position.leave
  rw [matched_concat, List.length_append]
  simp only [List.length_cons, List.length_nil]
  by_cases h : matched parts chain = chain.length ∧
    (parts[matched parts chain]?).any (isNamedBy node)
  · rw [if_pos h, if_pos ⟨by omega, by omega⟩]
    congr 1
  · rw [if_neg h, if_neg fun h' => by omega]
    congr 1

theorem leads_iff (parts chain : List Bytes) :
    Leads parts chain ↔ matched parts chain = parts.length ∧ parts.length = chain.length := by
  induction parts generalizing chain with
  | nil =>
    cases chain with
    | nil => simp [Leads, matched]
    | cons node chain => simp [Leads]
  | cons part parts ih =>
    cases chain with
    | nil => simp [Leads]
    | cons node chain =>
      rw [Leads, matched, ih chain, ← isNamedBy_iff]
      by_cases h : isNamedBy node part
      · rw [if_pos h, List.length_cons, List.length_cons]
        constructor
        · rintro ⟨-, h1, h2⟩
          exact ⟨by omega, by omega⟩
        · rintro ⟨h1, h2⟩
          exact ⟨h, by omega, by omega⟩
      · rw [if_neg h, List.length_cons]
        constructor
        · rintro ⟨h', -⟩
          exact absurd h' h
        · rintro ⟨h', -⟩
          omega

theorem atTarget_along (parts chain : List Bytes) :
    (along parts chain).atTarget parts = true ↔ Leads parts chain := by
  rw [leads_iff]
  unfold along Position.atTarget
  rw [Bool.and_eq_true, beq_iff_eq, beq_iff_eq]
  constructor
  · rintro ⟨h1, h2⟩
    exact ⟨h1, by simp only at h1 h2; omega⟩
  · rintro ⟨h1, h2⟩
    exact ⟨h1, by simp only; omega⟩

/-! ## Walks -/

variable {names : Bytes} {parts : List Bytes} {name : Bytes}

theorem walk_nops (n offset : Nat) (rest : Bytes) (p : Position) :
    walk names parts name offset (nops n ++ rest) p
      = walk names parts name (offset + 4 * n) rest p := by
  induction n generalizing offset with
  | zero => rfl
  | succ n ih =>
    rw [nops, List.append_assoc, walk_nop, ih]
    congr 1
    omega

/-- **A walk over the contents of a node.** It ends at the first property that is looked for, or
behind the contents in the position where it began. -/
theorem walk_of_encodes {c : Contents} {bs : Bytes} (h : Encodes names c bs) (chain : List Bytes)
    (offset : Nat) (rest : Bytes) :
    ∃ offset', walk names parts name offset (bs ++ rest) (along parts chain)
      = match wanted parts name (c.occurrences chain) with
        | some value => .ok (some value)
        | none => walk names parts name offset' rest (along parts chain) := by
  induction h generalizing chain offset rest with
  | nil n => exact ⟨_, walk_nops n offset rest _⟩
  | @property label value pad after bs size nameOffset c n hsize hpad hlabel hnames hrest ih =>
    obtain ⟨width, hwalk⟩ := @walk_property names parts name _ _ _ _ _ _ hsize hpad hlabel hnames
      (offset + 4 * n) (bs ++ rest) (along parts chain)
    obtain ⟨offset', hrest⟩ := ih chain (offset + 4 * n + width) rest
    refine ⟨offset', ?_⟩
    have hbytes : nops n ++ (propertyToken size nameOffset value pad ++ bs) ++ rest
        = nops n ++ (Bytes.ofWordBE 3 ++ (Bytes.ofWordBE size ++ (Bytes.ofWordBE nameOffset ++
          (value ++ (pad ++ (bs ++ rest)))))) := by
      simp [propertyToken]
    rw [hbytes, walk_nops, hwalk, Contents.occurrences, wanted_cons]
    by_cases hfound : Leads parts chain ∧ label = name
    · rw [if_pos ⟨(atTarget_along parts chain).2 hfound.1, hfound.2⟩, if_pos hfound]
    · rw [if_neg fun h => hfound ⟨(atTarget_along parts chain).1 h.1, h.2⟩, if_neg hfound, hrest]
  | @node label pad bs cs inside c n hlabel hpad hinside hrest ihinside ihrest =>
    obtain ⟨width, hwalk⟩ := @walk_beginNode names parts name _ _ hlabel hpad (offset + 4 * n)
      (bs ++ (Bytes.ofWordBE 2 ++ (cs ++ rest))) (along parts chain)
    obtain ⟨offset₁, hin⟩ := ihinside (chain ++ [label]) (offset + 4 * n + width)
      (Bytes.ofWordBE 2 ++ (cs ++ rest))
    obtain ⟨offset₂, hout⟩ := ihrest chain (offset₁ + 4) rest
    refine ⟨offset₂, ?_⟩
    have hbytes : nops n ++ (beginToken label pad ++ (bs ++ (Bytes.ofWordBE 2 ++ cs))) ++ rest
        = nops n ++ (Bytes.ofWordBE 1 ++ (label ++ 0 :: (pad ++
          (bs ++ (Bytes.ofWordBE 2 ++ (cs ++ rest)))))) := by
      simp [beginToken]
    rw [hbytes, walk_nops, hwalk, enter_along, hin, Contents.occurrences, wanted_append]
    cases wanted parts name (inside.occurrences (chain ++ [label])) with
    | some value => rfl
    | none =>
      rw [walk_endNode (by simp [along]), leave_along, hout]
      rfl

/-- The root opens and closes like any node, but the path starts below it. -/
theorem walk_of_encodesTree {c : Contents} {tokens : Bytes} (h : EncodesTree names c tokens) :
    walk names parts name 0 tokens .start = .ok (c.valueAt parts name) := by
  cases h with
  | @tree root pad bs after n m hroot hpad hinside =>
    obtain ⟨width, hwalk⟩ := @walk_beginNode names parts name _ _ hroot hpad (0 + 4 * n)
      (bs ++ (Bytes.ofWordBE 2 ++ (nops m ++ (Bytes.ofWordBE 9 ++ after)))) .start
    obtain ⟨offset, hin⟩ := @walk_of_encodes names parts name _ _ hinside []
      (0 + 4 * n + width) (Bytes.ofWordBE 2 ++ (nops m ++ (Bytes.ofWordBE 9 ++ after)))
    have hbytes : beginToken root pad ++ (bs ++ (Bytes.ofWordBE 2 ++
        (nops m ++ (Bytes.ofWordBE 9 ++ after)))) = Bytes.ofWordBE 1 ++ (root ++ 0 :: (pad ++
          (bs ++ (Bytes.ofWordBE 2 ++ (nops m ++ (Bytes.ofWordBE 9 ++ after)))))) := by
      simp [beginToken]
    have henter : Position.start.enter parts root = along parts [] := by
      cases parts <;> rfl
    rw [walk_nops, hbytes, hwalk, henter, hin]
    unfold Contents.valueAt
    cases wanted parts name (c.occurrences []) with
    | some value => rfl
    | none =>
      show walk names parts name offset _ (along parts []) = .ok none
      rw [walk_endNode (by simp [along]), walk_nops, walk_stop]

/-! ## Blobs -/

/-- A blob is accepted, with its two blocks. -/
theorem read_of_isBlob {h : Header} {tokens names data : Bytes}
    (hblob : IsBlob h tokens names data) :
    DeviceTree.read data = .ok ⟨tokens, names, h.version⟩ := by
  obtain ⟨after, hfront⟩ := hblob.front
  have hdecode : Header.codec.decode? data = some h := by
    rw [hfront, Header.codec.decode?_encode_append]
  have hcompatible : ¬ newestCompatible < h.lastCompatible := by
    have := hblob.compatible
    unfold newestCompatible
    rw [UInt32.lt_iff_toNat_lt]
    rw [UInt32.le_iff_toNat_le] at this
    omega
  have htotal : block data 0 h.totalSize.toNat "total" = .ok data := by
    unfold block Bytes.slice?
    rw [hblob.total]
    simp
  have htokens : block data h.tokensOffset.toNat h.tokensLength "struct" = .ok tokens := by
    unfold block Header.tokensLength
    rw [if_pos (by rw [hblob.version_eq]; decide), hblob.tokens_eq]
  have hnames : block data h.namesOffset.toNat h.namesSize.toNat "strings" = .ok names := by
    unfold block
    rw [hblob.names_eq]
  unfold DeviceTree.read
  rw [hdecode]
  simp only [if_neg hcompatible, hblob.magic_eq, ne_eq, not_true_eq_false, if_false]
  show (block data 0 h.totalSize.toNat "total" >>= fun data => _) = _
  rw [htotal]
  show (block data h.tokensOffset.toNat h.tokensLength "struct" >>= fun tokens => _) = _
  rw [htokens]
  show (block data h.namesOffset.toNat h.namesSize.toNat "strings" >>= fun names => _) = _
  rw [hnames]
  rfl

theorem lookup_of_hasComponents {h : Header} {tokens names data : Bytes} {c : Contents}
    (hblob : IsBlob h tokens names data) (htree : EncodesTree names c tokens) {path : String}
    {parts : List (List Char)} (hparts : HasComponents path.toList parts) (name : String) :
    ∃ t, DeviceTree.read data = .ok t ∧
      t.lookup path name = .ok (c.valueAt (parts.map Utf8.encodeChars) (Utf8.encode name)) := by
  refine ⟨_, read_of_isBlob hblob, ?_⟩
  rw [← pathParts_of_hasComponents hparts]
  exact walk_of_encodesTree htree

/-- **Looking up in a blob is looking up in its tree.** A path has its components in one way only,
and they are what the names of the nodes are held against. -/
theorem lookup_of_tree {h : Header} {tokens names data : Bytes} {c : Contents}
    (hblob : IsBlob h tokens names data) (htree : EncodesTree names c tokens)
    (path name : String) :
    ∃ t parts, DeviceTree.read data = .ok t ∧
      (∀ parts', HasComponents path.toList parts' ↔ parts' = parts) ∧
      t.lookup path name = .ok (c.valueAt (parts.map Utf8.encodeChars) (Utf8.encode name)) := by
  obtain ⟨parts, hparts⟩ := exists_hasComponents path.toList
  obtain ⟨t, hread, hlookup⟩ := lookup_of_hasComponents hblob htree hparts name
  exact ⟨t, parts, hread, fun _ => hasComponents_iff_eq hparts, hlookup⟩

/-- A root with the node `soc`, and `memory@0` in that, which has the property `reg`. -/
def nestedContents : Contents :=
  .node [115, 111, 99] (.node [109, 101, 109, 111, 114, 121, 64, 48]
    (.property [114, 101, 103] [1, 2, 3, 4] .nil) .nil) .nil

/-- Its tokens, with one that says nothing in front of `soc`. -/
def nestedTokens : Bytes :=
  [0, 0, 0, 1, 0, 0, 0, 0, 0, 0, 0, 4,
    0, 0, 0, 1, 115, 111, 99, 0,
    0, 0, 0, 1, 109, 101, 109, 111, 114, 121, 64, 48, 0, 0, 0, 0,
    0, 0, 0, 3, 0, 0, 0, 4, 0, 0, 0, 0, 1, 2, 3, 4,
    0, 0, 0, 2, 0, 0, 0, 2, 0, 0, 0, 2, 0, 0, 0, 9]

def nestedBlob : Bytes :=
  [0xD0, 0x0D, 0xFE, 0xED, 0, 0, 0, 112, 0, 0, 0, 40, 0, 0, 0, 108, 0, 0, 0, 40, 0, 0, 0, 17,
    0, 0, 0, 16, 0, 0, 0, 0, 0, 0, 0, 4, 0, 0, 0, 68] ++ (nestedTokens ++ [114, 101, 103, 0])

theorem isBlob_nestedBlob : IsBlob ⟨magic, 112, 40, 108, 40, 17, 16, 0, 4, 68⟩ nestedTokens
    [114, 101, 103, 0] nestedBlob :=
  ⟨⟨_, rfl⟩, rfl, rfl, by decide, rfl, rfl, rfl⟩

theorem encodesTree_nestedTokens :
    EncodesTree [114, 101, 103, 0] nestedContents nestedTokens := by
  have hreg := @Encodes.property [114, 101, 103, 0] [114, 101, 103] [1, 2, 3, 4] [] [] _ 4 0 _ 0
    rfl rfl (by decide) rfl (.nil 0)
  have hmemory := @Encodes.node [114, 101, 103, 0] [109, 101, 109, 111, 114, 121, 64, 48] [0, 0, 0]
    _ _ _ _ 0 (by decide) rfl hreg (.nil 0)
  have hsoc := @Encodes.node [114, 101, 103, 0] [115, 111, 99] [] _ _ _ _ 1 (by decide) rfl hmemory
    (.nil 0)
  exact @EncodesTree.tree _ _ [] [0, 0, 0] _ [] 0 0 (by decide) rfl hsoc

/-- One component names its node in full, the other one without the address. -/
theorem lookup_of_tree_memory :
    ∃ t, DeviceTree.read nestedBlob = .ok t ∧
      t.lookup "//soc/memory/" "reg" = .ok (some [1, 2, 3, 4]) := by
  have hparts : HasComponents "//soc/memory/".toList ["soc".toList, "memory".toList] := by
    have hmemory := @HasComponents.front "memory".toList _ _ (by decide) (by decide) .nil
    exact .slash (.slash (@HasComponents.front "soc".toList _ _ (by decide) (by decide) hmemory))
  obtain ⟨t, parts, hread, hunique, hlookup⟩ :=
    lookup_of_tree isBlob_nestedBlob encodesTree_nestedTokens "//soc/memory/" "reg"
  obtain rfl := (hunique _).1 hparts
  exact ⟨t, hread, hlookup⟩

end AndroidBoot.DeviceTree
