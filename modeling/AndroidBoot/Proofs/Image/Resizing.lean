import AndroidBoot.Image.Header

/-!
# Headers with other region sizes

A header takes a size for each region it describes, one after the other, and then the offset that
follows from its layout. Neither changes which regions there are, the page size or the size of the
header, so both changes can be described at once: `sized` is the header with all its sizes, `placed`
the header with the offset.

    h.regionKinds.foldlM resizeRegion h = .ok (h.sized size)                 (resizeRegions_eq)
    (h.sized size).regionSizes = each kind of h with its size                (regionSizes_sized)
    h.withOffsets = .ok (h.placed regions), if h.layout = .ok regions        (withOffsets_eq)
-/

namespace AndroidBoot

def BootFieldsV0.sized (base : BootFieldsV0) (size : RegionKind → UInt32) : BootFieldsV0 :=
  { base with
    kernelSize := size .kernel
    ramdiskSize := size .ramdisk
    secondSize := size .second }

def BootFieldsV3.sized (base : BootFieldsV3) (size : RegionKind → UInt32) : BootFieldsV3 :=
  { base with
    kernelSize := size .kernel
    ramdiskSize := size .ramdisk }

def VendorFieldsV3.sized (base : VendorFieldsV3) (size : RegionKind → UInt32) : VendorFieldsV3 :=
  { base with
    vendorRamdiskSize := size .vendorRamdisk
    dtbSize := size .dtb }

def VendorFieldsV4.ofSizes (size : RegionKind → UInt32) : VendorFieldsV4 where
  tableSize := size .vendorRamdiskTable
  tableEntryCount := size .vendorRamdiskTable / UInt32.ofNat VendorHeader.tableEntrySize
  tableEntrySize := UInt32.ofNat VendorHeader.tableEntrySize
  bootconfigSize := size .bootconfig

namespace ImageHeader

/-- The header with these sizes for all its regions. -/
def sized (h : ImageHeader) (size : RegionKind → UInt32) : ImageHeader :=
  match h with
  | boot (.v0 base) => boot (.v0 (base.sized size))
  | boot (.v1 base e1) =>
    boot (.v1 (base.sized size) { e1 with recoveryDtboSize := size .recoveryDtbo })
  | boot (.v2 base e1 e2) =>
    boot (.v2 (base.sized size) { e1 with recoveryDtboSize := size .recoveryDtbo }
      { e2 with dtbSize := size .dtb })
  | boot (.v3 base) => boot (.v3 (base.sized size))
  | boot (.v4 base e4) => boot (.v4 (base.sized size) { e4 with signatureSize := size .signature })
  | vendor (.v3 base) => vendor (.v3 (base.sized size))
  | vendor (.v4 base _) => vendor (.v4 (base.sized size) (.ofSizes size))

/-- The header with the offset that it has for a region lying where a layout has it. -/
def placed (h : ImageHeader) (regions : List Region) : ImageHeader :=
  let offset := UInt64.ofNat (BootHeader.regionOffset regions .recoveryDtbo)
  match h with
  | boot (.v1 base e1) => boot (.v1 base { e1 with recoveryDtboOffset := offset })
  | boot (.v2 base e1 e2) => boot (.v2 base { e1 with recoveryDtboOffset := offset } e2)
  | h => h

/-! ## Sizes -/

/-- The sizes set one after the other are all the sizes. -/
theorem resizeRegions_eq (h : ImageHeader) (size : RegionKind → UInt32) :
    h.regionKinds.foldlM (fun h kind => h.resizeRegion kind (size kind)) h
      = .ok (h.sized size) := by
  rcases h with (_ | _ | _ | _ | _) | (_ | _) <;> rfl

theorem regionSizes_sized (h : ImageHeader) (size : RegionKind → UInt32) :
    (h.sized size).regionSizes = h.regionKinds.map fun kind => (kind, size kind) := by
  rcases h with (_ | _ | _ | _ | _) | (_ | _) <;> rfl

theorem pageSize_sized (h : ImageHeader) (size : RegionKind → UInt32) :
    (h.sized size).pageSize = h.pageSize := by
  rcases h with (_ | _ | _ | _ | _) | (_ | _) <;> rfl

/-! ## Offsets -/

theorem withOffsets_eq {h : ImageHeader} {regions : List Region}
    (hlayout : h.layout = .ok regions) :
    h.withOffsets = .ok (h.placed regions) := by
  cases h with
  | boot h =>
    replace hlayout : h.layout = .ok regions := hlayout
    rw [withOffsets, BootHeader.withOffsets, hlayout]
    rcases h with _ | _ | _ | _ | _ <;> rfl
  | vendor h => rfl

/-- Without a page size there are no offsets, for the headers that state it. -/
theorem withOffsets_of_error {h : BootHeader} {e : ImageError} (hlayout : h.layout = .error e) :
    h.withOffsets = .error e := by
  rw [BootHeader.withOffsets, hlayout]
  rfl

theorem regionSizes_placed (h : ImageHeader) (regions : List Region) :
    (h.placed regions).regionSizes = h.regionSizes := by
  rcases h with (_ | _ | _ | _ | _) | (_ | _) <;> rfl

theorem pageSize_placed (h : ImageHeader) (regions : List Region) :
    (h.placed regions).pageSize = h.pageSize := by
  rcases h with (_ | _ | _ | _ | _) | (_ | _) <;> rfl

theorem headerSize_placed (h : ImageHeader) (regions : List Region) :
    (h.placed regions).headerSize = h.headerSize := by
  rcases h with (_ | _ | _ | _ | _) | (_ | _) <;> rfl

end ImageHeader

end AndroidBoot
