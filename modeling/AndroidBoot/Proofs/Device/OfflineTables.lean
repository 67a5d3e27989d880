import Mathlib.Algebra.Ring.Nat
import AndroidBoot.Assembly.Selection
import AndroidBoot.Device.Facts
import AndroidBoot.Proofs.DeviceTree.Lookups

/-!
# Offline tables of device trees

A device tree has one say in a boot: its table of thresholds and amounts stands in for the table
that is configured, and only there. A tree without one, or one that cannot be read, is as good as
no tree. A table without entries is still a table; it leaves no limit.

    cellPairs (cells value) is the list of the pairs that lie one after the other in value
                                                                              (cellPairs_cells)
    HasTable data table → offlineTable data = .ok (some table)        (offlineTable_of_hasTable)
    the limits of two boots agree → the boots have the same outputs    (assemble_of_memoryLimit)
-/

namespace AndroidBoot

namespace DeviceTree

/-! ## Cells in pairs -/

/-- A threshold and its amount, as two cells. -/
def pairCodec : Codec (UInt64 × UInt64) := Codec.longBE.pair Codec.longBE

theorem cellPairs_readMany :
    ∀ (n : Nat) (bs : Bytes), cellPairs (Codec.longBE.readMany n bs) = pairCodec.readMany (n / 2) bs
  | 0, _ => rfl
  | 1, _ => rfl
  | n + 2, bs => by
    have hfirst : (bs.take 16).take 8 = bs.take 8 := by rw [List.take_take]; rfl
    have hsecond : (bs.take 16).drop 8 = (bs.drop 8).take 8 := List.drop_take
    have hrest : (bs.drop 8).drop 8 = bs.drop 16 := List.drop_drop
    have hpair : pairCodec.read (bs.take 16)
        = (Codec.longBE.read (bs.take 8), Codec.longBE.read ((bs.drop 8).take 8)) := by
      show (Codec.longBE.read ((bs.take 16).take 8), Codec.longBE.read ((bs.take 16).drop 8)) = _
      rw [hfirst, hsecond]
    rw [Nat.add_div_right n (by decide)]
    show (_, _) :: cellPairs (Codec.longBE.readMany n ((bs.drop 8).drop 8))
      = pairCodec.read (bs.take 16) :: pairCodec.readMany (n / 2) (bs.drop 16)
    rw [hpair, hrest, cellPairs_readMany n]
    rfl

/-- The pairs in a value lie one after the other; what is left over is no pair. -/
theorem cellPairs_cells (value : Bytes) :
    cellPairs (cells value) = pairCodec.readMany (value.length / 16) value := by
  rw [cells, cellPairs_readMany, Nat.div_div_eq_div_mul]

/-- Behind the pairs of a table there may be anything that is too short for one more. -/
theorem cellPairs_cells_encode (table : List (UInt64 × UInt64)) {extra : Bytes}
    (hextra : extra.length < 16) :
    cellPairs (cells (table.flatMap pairCodec.encode ++ extra)) = table := by
  have hlength : (table.flatMap pairCodec.encode).length = table.length * 16 :=
    pairCodec.length_flatMap_encode table
  have hcount : (table.flatMap pairCodec.encode ++ extra).length / 16 = table.length := by
    rw [List.length_append, hlength]
    omega
  rw [cellPairs_cells, hcount, pairCodec.readMany_flatMap_encode]

/-! ## Tables of trees -/

/-- The property that holds a table, in a node right below the root. -/
def tableValue (c : Contents) : Option Bytes :=
  c.valueAt [Utf8.encode "mem-offline"] (Utf8.encode "offline-sizes")

/-- The table of a tree is what its property holds. -/
theorem offlineTable_of_tree {h : Header} {tokens names data : Bytes} {c : Contents}
    (hblob : IsBlob h tokens names data) (htree : EncodesTree names c tokens) :
    offlineTable data = .ok ((tableValue c).map fun value => cellPairs (cells value)) := by
  have hparts : HasComponents "/mem-offline".toList ["mem-offline".toList] :=
    .slash (.last (by decide) (by decide))
  obtain ⟨t, hread, hlookup⟩ := lookup_of_hasComponents hblob htree hparts "offline-sizes"
  unfold offlineTable
  rw [hread]
  show (t.lookup "/mem-offline" "offline-sizes" >>= fun value => pure (value.map _)) = _
  rw [hlookup]
  rfl

/-- A blob of version 17 whose tree has this table. A cell and up to seven bytes may follow on the
pairs. -/
inductive HasTable (data : Bytes) (table : List (UInt64 × UInt64)) : Prop where
  | blob {h : Header} {tokens names extra : Bytes} {c : Contents}
      (hblob : IsBlob h tokens names data) (htree : EncodesTree names c tokens)
      (hvalue : tableValue c = some (table.flatMap pairCodec.encode ++ extra))
      (hextra : extra.length < 16) : HasTable data table

theorem offlineTable_of_hasTable {data : Bytes} {table : List (UInt64 × UInt64)}
    (h : HasTable data table) : offlineTable data = .ok (some table) := by
  obtain ⟨hblob, htree, hvalue, hextra⟩ := h
  rw [offlineTable_of_tree hblob htree, hvalue, Option.map_some,
    cellPairs_cells_encode table hextra]

/-- A tree that gives no table: it cannot be read, or it has none. -/
def NoTable (data : Bytes) : Prop :=
  (∃ e, offlineTable data = .error e) ∨ offlineTable data = .ok none

/-! ## Trees for tables -/

/-- A blob with its tokens right behind the header, and the names behind them. -/
theorem isBlob_of_layout {h : Header} {tokens names : Bytes} (hmagic : h.magic = magic)
    (hversion : h.version = 17) (hcompatible : h.lastCompatible ≤ 17)
    (htotal : h.totalSize.toNat = 40 + tokens.length + names.length)
    (htokens : h.tokensOffset.toNat = 40) (htokensSize : h.tokensSize.toNat = tokens.length)
    (hnames : h.namesOffset.toNat = 40 + tokens.length)
    (hnamesSize : h.namesSize.toNat = names.length) :
    IsBlob h tokens names (Header.codec.encode h ++ (tokens ++ names)) := by
  have hheader : (Header.codec.encode h).length = 40 := Header.codec.length_encode h
  refine ⟨⟨_, rfl⟩, hmagic, hversion, hcompatible, ?_, ?_, ?_⟩
  · rw [htotal, List.length_append, List.length_append, hheader, Nat.add_assoc]
  · exact Bytes.slice?_append _ _ (htokens.trans hheader.symm) htokensSize
  · have hstart : h.namesOffset.toNat = (Header.codec.encode h ++ tokens).length := by
      rw [hnames, List.length_append, hheader]
    have hslice := Bytes.slice?_append (Header.codec.encode h ++ tokens) [] hstart hnamesSize
    rwa [List.append_nil, List.append_assoc] at hslice

/-- A root with one node, in which the property of the table has this value. -/
def tableContents (value : Bytes) : Contents :=
  .node (Utf8.encode "mem-offline") (.property (Utf8.encode "offline-sizes") value .nil) .nil

def tableNames : Bytes := Utf8.encode "offline-sizes" ++ [0]

def tableTokens (value : Bytes) : Bytes :=
  beginToken [] (Bytes.zeros 3) ++ (beginToken (Utf8.encode "mem-offline") [] ++
    (propertyToken (UInt32.ofNat value.length) 0 value
        (Bytes.zeros (padding value.length tokenAlignment)) ++
      (Bytes.ofWordBE 2 ++ (Bytes.ofWordBE 2 ++ Bytes.ofWordBE 9))))

/-- A blob that says nothing else. -/
def tableBlob (value : Bytes) : Bytes :=
  let size := (tableTokens value).length
  Header.codec.encode
      { magic, totalSize := UInt32.ofNat (54 + size), tokensOffset := 40
        namesOffset := UInt32.ofNat (40 + size), reservationsOffset := 40, version := 17
        lastCompatible := 16, bootCpu := 0, namesSize := 14, tokensSize := UInt32.ofNat size }
    ++ (tableTokens value ++ tableNames)

theorem encodesTree_tableTokens {value : Bytes} (h : value.length < 2 ^ 32) :
    EncodesTree tableNames (tableContents value) (tableTokens value) := by
  have hproperty := @Encodes.property tableNames (Utf8.encode "offline-sizes") value _ [] _ _ 0 _ 0
    (UInt32.toNat_ofNat_of_lt' h) (Bytes.length_zeros _) (by decide) rfl (.nil 0)
  have hnode := @Encodes.node tableNames (Utf8.encode "mem-offline") [] _ _ _ _ 0 (by decide) rfl
    hproperty (.nil 0)
  have htree := @EncodesTree.tree tableNames _ [] (Bytes.zeros 3) _ [] 0 0 (by decide) rfl hnode
  simpa only [tableContents, tableTokens, nops, List.nil_append, List.append_nil,
    List.append_assoc] using htree

theorem length_tableTokens_le (value : Bytes) : (tableTokens value).length ≤ 51 + value.length := by
  have hpadding : padding value.length tokenAlignment < 4 := padding_lt (by decide)
  have hnode : (Utf8.encode "mem-offline").length = 11 := by decide
  simp only [tableTokens, beginToken, propertyToken, List.length_append, List.length_cons,
    List.length_nil, Bytes.length_ofWordBE, Bytes.length_zeros, hnode]
  omega

/-- Every table that is not too long for a blob has a tree. -/
theorem hasTable_tableBlob (table : List (UInt64 × UInt64)) {extra : Bytes}
    (hextra : extra.length < 16)
    (hlength : (table.flatMap pairCodec.encode ++ extra).length < 2 ^ 31) :
    HasTable (tableBlob (table.flatMap pairCodec.encode ++ extra)) table := by
  have htokens := length_tableTokens_le (table.flatMap pairCodec.encode ++ extra)
  have hnames : tableNames.length = 14 := by decide
  have hword : ∀ {n : Nat}, n < 2 ^ 32 → (UInt32.ofNat n).toNat = n := UInt32.toNat_ofNat_of_lt'
  refine .blob (isBlob_of_layout rfl rfl (show (16 : UInt32) ≤ 17 by decide) ?_ rfl ?_ ?_
    hnames.symm) (encodesTree_tableTokens (by omega)) ?_ hextra
  · show (UInt32.ofNat _).toNat = _
    rw [hword (by omega), hnames]
    omega
  · exact hword (by omega)
  · exact hword (by omega)
  · rfl

end DeviceTree

/-! ## Limits -/

open DeviceTree

namespace OfflineMemory

variable {data : Bytes} {table : List (UInt64 × UInt64)}

theorem limitWith_of_noTable (m : OfflineMemory) (h : NoTable data) :
    m.limitWith (some data) = m.limitWith none := by
  obtain ⟨e, h⟩ | h := h
  all_goals
    rw [limitWith, Option.map_some, h]
    rfl

theorem limitWith_of_table (m : OfflineMemory) (h : offlineTable data = .ok (some table)) :
    m.limitWith (some data) = usableMemory m.ddrSize m.minDdrSize table := by
  rw [limitWith, Option.map_some, h]

end OfflineMemory

theorem usableMemory_nil (ddrSize minDdrSize : UInt64) :
    usableMemory ddrSize minDdrSize [] = none :=
  if_pos (.inr rfl)

namespace DeviceFacts

variable {data : Bytes} {table : List (UInt64 × UInt64)}

/-- The facts with another table, where they state the sizes of the memory at all. -/
def withTable (f : DeviceFacts) (table : List (UInt64 × UInt64)) : DeviceFacts :=
  { f with memoryOffline := f.memoryOffline.map fun m => { m with table } }

/-- Devices that never have a limit: those whose facts say nothing about the memory, and Linux
Embedded builds. -/
def Unlimited (f : DeviceFacts) : Prop := f.memoryOffline = none ∨ f.flags.has .leVariant

theorem memoryLimit_toView (f : DeviceFacts) (tree : Option Bytes) :
    f.toView.memoryLimit tree
      = if f.flags.has .leVariant then none else f.memoryOffline.bind (·.limitWith tree) := rfl

theorem memoryLimit_of_noTable (f : DeviceFacts) (h : NoTable data) :
    f.toView.memoryLimit (some data) = f.toView.memoryLimit none := by
  have hbind : f.memoryOffline.bind (·.limitWith (some data))
      = f.memoryOffline.bind (·.limitWith none) := by
    cases f.memoryOffline with
    | none => rfl
    | some m => exact m.limitWith_of_noTable h
  rw [memoryLimit_toView, memoryLimit_toView, hbind]

theorem memoryLimit_of_table (f : DeviceFacts) (h : offlineTable data = .ok (some table)) :
    f.toView.memoryLimit (some data) = (f.withTable table).toView.memoryLimit none := by
  have hbind : f.memoryOffline.bind (·.limitWith (some data))
      = (f.withTable table).memoryOffline.bind (·.limitWith none) := by
    unfold withTable
    cases f.memoryOffline with
    | none => rfl
    | some m => exact m.limitWith_of_table h
  rw [memoryLimit_toView, memoryLimit_toView, hbind]
  rfl

theorem memoryLimit_of_unlimited {f : DeviceFacts} (h : f.Unlimited) (tree : Option Bytes) :
    f.toView.memoryLimit tree = none := by
  rw [memoryLimit_toView]
  obtain h | h := h
  · rw [h, Option.bind_none, ite_self]
  · rw [if_pos h]

/-- A table without entries leaves no limit, whichever table is configured. -/
theorem memoryLimit_of_emptyTable (f : DeviceFacts) (h : offlineTable data = .ok (some [])) :
    f.toView.memoryLimit (some data) = none := by
  have hbind : f.memoryOffline.bind (·.limitWith (some data)) = none := by
    cases f.memoryOffline with
    | none => rfl
    | some m => exact (m.limitWith_of_table h).trans (usableMemory_nil _ _)
  rw [memoryLimit_toView, hbind, ite_self]

end DeviceFacts

/-! ## Boots -/

namespace Assembly

/-- Without a limit there is nothing about the memory on the command line. -/
theorem memory_of_no_limit (request : BootRequest) (device : DeviceView)
    (h : device.memoryLimit request.deviceTree = none) : memory request device = [] := by
  rw [memory, h, ite_self]

/-- A boot asks for its limit and for nothing else of its tree. -/
theorem assemble_of_memoryLimit (request : BootRequest) (device : DeviceView)
    {tree tree' : Option Bytes} {limit : Option Bytes → Option Nat}
    (h : device.memoryLimit tree = limit tree') :
    assemble { request with deviceTree := tree } device
      = assemble { request with deviceTree := tree' } { device with memoryLimit := limit } := by
  have hmemory : memory { request with deviceTree := tree } device
      = memory { request with deviceTree := tree' } { device with memoryLimit := limit } := by
    unfold memory
    rw [h]
  unfold assemble fragments
  rw [hmemory]
  rfl

end Assembly

namespace DeviceFacts

open Assembly

variable {data : Bytes} {table : List (UInt64 × UInt64)}

/-- The outputs of a boot of the device with a tree. -/
def outputs (f : DeviceFacts) (request : BootRequest) (tree : Option Bytes) :
    Except AssemblyError BootOutputs :=
  assemble { request with deviceTree := tree } f.toView

/-- The part of the command line that is about the memory. -/
def memoryFragments (f : DeviceFacts) (request : BootRequest) (tree : Option Bytes) :
    List Fragment :=
  memory { request with deviceTree := tree } f.toView

/-- **A tree stands in for the configured table, and changes nothing else.** -/
theorem outputs_of_tree (f : DeviceFacts) (request : BootRequest) (data : Bytes) :
    (NoTable data → f.outputs request (some data) = f.outputs request none) ∧
    (∀ table, HasTable data table →
      f.outputs request (some data) = (f.withTable table).outputs request none) ∧
    (f.Unlimited → f.outputs request (some data) = f.outputs request none ∧
      f.memoryFragments request (some data) = []) ∧
    (HasTable data [] → f.toView.memoryLimit (some data) = none ∧
      f.memoryFragments request (some data) = []) := by
  refine ⟨fun h => ?_, fun table h => ?_, fun h => ⟨?_, ?_⟩, fun h => ?_⟩
  · exact assemble_of_memoryLimit request f.toView (f.memoryLimit_of_noTable h)
  · exact assemble_of_memoryLimit request f.toView
      (f.memoryLimit_of_table (offlineTable_of_hasTable h))
  · exact assemble_of_memoryLimit request f.toView
      ((memoryLimit_of_unlimited h _).trans (memoryLimit_of_unlimited h none).symm)
  · exact memory_of_no_limit _ _ (memoryLimit_of_unlimited h _)
  · have hlimit := f.memoryLimit_of_emptyTable (offlineTable_of_hasTable h)
    exact ⟨hlimit, memory_of_no_limit _ _ hlimit⟩

/-- A device with 12 bytes of memory, of which it leaves one unused. -/
def smallDevice : DeviceFacts where
  serialNumber := some "1"
  slotSuffix := none
  bootDevice := none
  rootDeviceType := none
  chipBaseband := some "msm"
  displayConfig := none
  dtboIndex := none
  dtbIndex := none
  initBinary := none
  leVerityCmdline := none
  pauseForBatteryCharge := false
  flags := .empty
  memoryOffline := some ⟨12, 4, [(8, 1)]⟩

/-- The tree of the table `[(8, 3)]`, with a cell and three bytes behind it. -/
def shiftedTree : Bytes :=
  tableBlob ([(8, 3)].flatMap pairCodec.encode ++ [0, 0, 0, 0, 0, 0, 0, 12, 0, 0, 0])

/-- The tree of the table without entries, with a cell behind it. -/
def emptyTableTree : Bytes :=
  tableBlob ([].flatMap pairCodec.encode ++ [0, 0, 0, 0, 0, 0, 0, 12])

theorem outputs_of_tree_smallDevice :
    let request : BootRequest := { headerVersion := 2 }
    smallDevice.outputs request (some [0xD0, 0x0D]) = smallDevice.outputs request none ∧
    (smallDevice.outputs request (some shiftedTree)
        = (smallDevice.withTable [(8, 3)]).outputs request none ∧
      smallDevice.toView.memoryLimit (some shiftedTree) = some 9 ∧
      smallDevice.toView.memoryLimit none = some 11) ∧
    (smallDevice.outputs request (some emptyTableTree)
        = (smallDevice.withTable []).outputs request none ∧
      smallDevice.memoryFragments request (some emptyTableTree) = []) ∧
    { smallDevice with memoryOffline := none }.outputs request (some shiftedTree)
      = { smallDevice with memoryOffline := none }.outputs request none := by
  intro request
  have hshifted : HasTable shiftedTree [(8, 3)] := hasTable_tableBlob _ (by decide) (by decide)
  have hempty : HasTable emptyTableTree [] := hasTable_tableBlob _ (by decide) (by decide)
  refine ⟨?_, ⟨?_, ?_, rfl⟩, ⟨?_, ?_⟩, ?_⟩
  · exact (outputs_of_tree smallDevice request _).1 (.inl ⟨_, rfl⟩)
  · exact (outputs_of_tree smallDevice request _).2.1 _ hshifted
  · exact smallDevice.memoryLimit_of_table (offlineTable_of_hasTable hshifted)
  · exact (outputs_of_tree smallDevice request _).2.1 _ hempty
  · exact ((outputs_of_tree smallDevice request _).2.2.2 hempty).2
  · exact ((outputs_of_tree _ request shiftedTree).2.2.1 (.inl rfl)).1

end DeviceFacts

end AndroidBoot
