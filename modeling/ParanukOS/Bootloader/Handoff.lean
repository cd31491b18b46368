import ParanukOS.BootInfo
import ParanukOS.Bootloader.FsLoader

/-!
# The handoff to the kernel

The embedding of `bootloader/handoff.rs` and of the order of its calls in `main.rs`.  The boot
loader loads the kernel and the user image, allocates the boot stack and the page of the boot
information, leaves the firmware and writes the boot information.  The memory map is the one that
the firmware returns at the end; the repair of the magic number is left out.
-/

namespace ParanukOS

open Foundation Foundation.Fallible KernelImage

namespace Bootloader

variable {φ : Type}

/-- `KERNEL_STACK_SIZE`. -/
def kernelStackSize : ℕ := 64 * 1024

/-- What is there before the handoff. -/
structure Prepared where
  /-- The end of the boot stack. -/
  stackTop : ℕ
  /-- The page of the boot information. -/
  bootInfo : ℕ
  /-- The address of the ACPI tables. -/
  rsdp : ℕ
  deriving DecidableEq, Repr

/-- `prepare`. -/
def prepare (fw : Firmware φ) (rsdp : ℕ) (ram : Ram φ) : Fallible LoadError (Prepared × Ram φ) :=
  match fw.allocateAny ram (kernelStackSize / pageSize) with
  | .error status => throw (.efi status)
  | .ok (stackBase, ram) => do
    let stackTop ← addWord stackBase kernelStackSize
    match fw.allocateAny ram 1 with
    | .error status => throw (.efi status)
    | .ok (bootInfo, ram) => return ({ stackTop, bootInfo, rsdp }, ram)

/-- What the boot loader has done before it leaves the firmware. -/
structure Boot (φ : Type) where
  /-- The kernel image. -/
  kernel : LoadedKernel
  /-- The pages that have been allocated for it. -/
  kernelPages : List ℕ
  /-- The user image. -/
  user : LoadedKernel
  /-- The pages that have been allocated for it. -/
  userPages : List ℕ
  /-- The boot stack and the page of the boot information. -/
  prepared : Prepared
  /-- The machine. -/
  ram : Ram φ

/-- `main`: the two files, or the reasons for which they have not been read. -/
def main (fw : Firmware φ) (kernelFile userFile : Except LoadError (Slice UInt8)) (rsdp : ℕ)
    (ram : Ram φ) : Fallible LoadError (Boot φ) := do
  let (kernel, s) ← load fw kernelFile ram
  let (user, s') ← load fw userFile s.ram
  let (prepared, ram) ← prepare fw rsdp s'.ram
  return { kernel, kernelPages := s.requests, user, userPages := s'.requests, prepared, ram }

/-- The memory map that `exit_boot_services` returns. -/
structure MapBuffer where
  /-- Its address. -/
  ptr : ℕ
  /-- The number of descriptors. -/
  len : ℕ
  /-- The distance between two of them. -/
  descSize : ℕ
  /-- The version of the descriptors. -/
  descVer : ℕ
  deriving DecidableEq, Repr

/-- The sum of signed words; stops on overflow. -/
def addI64 (a b : ℤ) : Checked ℤ :=
  if -2 ^ 63 ≤ a + b ∧ a + b < 2 ^ 63 then .ok (a + b) else .error .overflow

/-- A signed word as a word (`as u64`). -/
def asU64 (x : ℤ) : UInt64 := .ofNat (x % 2 ^ 64).toNat

/-- `enter_kernel`, up to the boot information that it writes. -/
def enterKernel (kernel user : LoadedKernel) (prepared : Prepared) (map : MapBuffer)
    (exitPort : UInt32) : Checked BootInfo := do
  let _ ← subWord prepared.stackTop 8
  let userVaddr ← addI64 (asI64 user.base) user.vaddrDelta
  return { BootInfo.new with
    mmapPtr := .ofNat map.ptr
    mmapLen := .ofNat map.len
    mmapDescSize := .ofNat map.descSize
    mmapDescVer := .ofNat map.descVer
    rsdp := .ofNat prepared.rsdp
    kernelBase := .ofNat kernel.base
    kernelSize := .ofNat kernel.size
    stackTop := .ofNat prepared.stackTop
    stackSize := .ofNat kernelStackSize
    exitPort
    userPhys := .ofNat user.base
    userSize := .ofNat user.size
    userVaddr := asU64 userVaddr
    userEntry := .ofNat user.entry }

/-- What the boot information says about the images and the stack. -/
structure Describes (info : BootInfo) (kernel user : LoadedKernel) (prepared : Prepared) :
    Prop where
  kernelBase_eq : info.kernelBase = .ofNat kernel.base
  kernelSize_eq : info.kernelSize = .ofNat kernel.size
  stackTop_eq : info.stackTop = .ofNat prepared.stackTop
  stackSize_eq : info.stackSize = .ofNat kernelStackSize
  userPhys_eq : info.userPhys = .ofNat user.base
  userSize_eq : info.userSize = .ofNat user.size
  userEntry_eq : info.userEntry = .ofNat user.entry
  userVaddr_eq : info.userVaddr = asU64 (asI64 user.base + user.vaddrDelta)

/-- The kernel is told where both images and its stack are. -/
lemma describes_of_enterKernel {kernel user : LoadedKernel} {prepared : Prepared} {map : MapBuffer}
    {exitPort : UInt32} {info : BootInfo}
    (h : enterKernel kernel user prepared map exitPort = .ok info) :
    Describes info kernel user prepared := by
  rw [enterKernel] at h
  obtain ⟨_, -, h⟩ := Checked.bind_eq_ok.mp h
  obtain ⟨userVaddr, hvaddr, h⟩ := Checked.bind_eq_ok.mp h
  unfold addI64 at hvaddr
  split_ifs at hvaddr
  obtain rfl := Except.ok.inj hvaddr
  obtain rfl := Except.ok.inj h
  exact ⟨rfl, rfl, rfl, rfl, rfl, rfl, rfl, rfl⟩

end Bootloader

end ParanukOS
