import Mathlib.Tactic

/-!
# Boot information

The embedding of `boot-info/src/lib.rs`: what the boot loader tells the kernel.  Version 1 has four
more fields than version 0; an older boot loader leaves them out, and the kernel then has no user
image.
-/

namespace ParanukOS

/-- `BOOT_INFO_MAGIC`. -/
def bootInfoMagic : UInt64 := 0x506172616E756B01

/-- `BOOT_INFO_VERSION`. -/
def bootInfoVersion : UInt32 := 1

/-- `BOOT_INFO_SIZE_V0`. -/
def bootInfoSizeV0 : UInt32 := 88

/-- `size_of::<BootInfo>()`. -/
def bootInfoSize : UInt32 := 120

/-- The structure in the memory that both sides share. -/
structure BootInfo where
  magic : UInt64 := 0
  version : UInt32 := 0
  size : UInt32 := 0
  /-- The address of the memory map. -/
  mmapPtr : UInt64 := 0
  /-- The number of its descriptors. -/
  mmapLen : UInt64 := 0
  /-- The distance between two of them. -/
  mmapDescSize : UInt32 := 0
  mmapDescVer : UInt32 := 0
  rsdp : UInt64 := 0
  /-- The physical address of the kernel image. -/
  kernelBase : UInt64 := 0
  kernelSize : UInt64 := 0
  /-- The end of the boot stack. -/
  stackTop : UInt64 := 0
  stackSize : UInt64 := 0
  exitPort : UInt32 := 0
  /-- The physical address of the user image. -/
  userPhys : UInt64 := 0
  userSize : UInt64 := 0
  /-- The virtual address that belongs to `userPhys`. -/
  userVaddr : UInt64 := 0
  userEntry : UInt64 := 0
  deriving DecidableEq, Repr

/-- The reasons for which the kernel refuses the structure. -/
inductive BootInfoError where
  | wrongMagic (found : UInt64)
  | unsupportedVersion (found supported : UInt32)
  | tooSmall (size expected : UInt32)
  deriving DecidableEq, Repr

namespace BootInfo

/-- `new`. -/
def new : BootInfo := { magic := bootInfoMagic, version := bootInfoVersion, size := bootInfoSize }

/-- `validate`. -/
def validate (self : BootInfo) : Except BootInfoError Unit := do
  if self.magic ≠ bootInfoMagic then throw (.wrongMagic self.magic)
  let expected ←
    if self.version = 0 then pure bootInfoSizeV0
    else if self.version = bootInfoVersion then pure bootInfoSize
    else throw (.unsupportedVersion self.version bootInfoVersion)
  if self.size < expected then throw (.tooSmall self.size expected)

/-- `has_user_image`. -/
def hasUserImage (self : BootInfo) : Bool :=
  1 ≤ self.version && bootInfoSize ≤ self.size && self.userPhys ≠ 0 && self.userSize ≠ 0 &&
    self.userVaddr ≠ 0 && self.userEntry ≠ 0

end BootInfo

end ParanukOS
