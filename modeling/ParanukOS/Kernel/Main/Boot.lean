import ParanukOS.Kernel.Main.Partition
import ParanukOS.Kernel.User.Pages

/-!
# From the boot loader to the kernel

The boot loader loads the kernel and the user image and describes them in the boot information; the
kernel checks the boot information and keeps the frames of its image out of the frame allocator.
Here both sides are put together.

## Outline

* `Handoff.kernel_fields`, `Handoff.stack_le`, `Handoff.validate_eq`: what the kernel is told.
* `loaded_kernel_intact`: the main theorem.
-/

namespace ParanukOS

open Foundation Foundation.Fallible KernelMemory Bootloader FrameAllocator
open KernelImage hiding pageSize

namespace Kernel

variable {φ : Type} {fw : Firmware φ} {kernelFile userFile : Slice UInt8} {ram : Ram φ}
  {boot : Boot φ} {info : BootInfo} {p : Platform}

namespace Handoff

/-- The range of the kernel image is the one of its segments. -/
lemma kernel_fields (h : Handoff fw kernelFile userFile ram boot info) :
    Span (loads kernelFile) info.kernelBase.toNat
      (info.kernelBase.toNat + info.kernelSize.toNat) := by
  obtain ⟨s, s', hkernel, -⟩ := h.loaded
  have hword := hkernel.span.stop_lt
  obtain ⟨map, exitPort, henter⟩ := h.enters
  have hdescribes := describes_of_enterKernel henter
  have hbase : info.kernelBase.toNat = boot.kernel.base := by
    rw [hdescribes.kernelBase_eq]
    exact UInt64.toNat_ofNat_of_lt' (show boot.kernel.base < 2 ^ 64 by omega)
  have hsize : info.kernelSize.toNat = boot.kernel.size := by
    rw [hdescribes.kernelSize_eq]
    exact UInt64.toNat_ofNat_of_lt' (show boot.kernel.size < 2 ^ 64 by omega)
  rw [hbase, hsize]
  exact hkernel.span

/-- The boot stack does not begin below 0. -/
lemma stack_le (h : Handoff fw kernelFile userFile ram boot info) :
    info.stackSize.toNat ≤ info.stackTop.toNat := by
  obtain ⟨s, s', -, -, -, -, rsdp, hprepare⟩ := h.loaded
  rw [prepare] at hprepare
  cases hstack : fw.allocateAny s'.ram (kernelStackSize / KernelImage.pageSize) with
  | error status =>
    rw [hstack] at hprepare
    exact absurd hprepare not_returns_throw
  | ok result =>
    obtain ⟨stackBase, ram₁⟩ := result
    rw [hstack] at hprepare
    obtain ⟨stackTop, htop, hprepare⟩ := returns_bind.mp hprepare
    obtain ⟨hword, rfl⟩ := addWord_eq_ok_iff.mp (returns_lift.mp htop)
    cases hinfo : fw.allocateAny ram₁ 1 with
    | error status =>
      rw [hinfo] at hprepare
      exact absurd hprepare not_returns_throw
    | ok result =>
      rw [hinfo] at hprepare
      obtain ⟨hprepared, -⟩ := Prod.mk.inj (returns_pure.mp hprepare)
      obtain ⟨map, exitPort, henter⟩ := h.enters
      have hdescribes := describes_of_enterKernel henter
      have htop : info.stackTop.toNat = stackBase + kernelStackSize := by
        rw [hdescribes.stackTop_eq, ← hprepared]
        exact UInt64.toNat_ofNat_of_lt' hword
      rw [htop, hdescribes.stackSize_eq]
      exact Nat.le_add_left _ _

/-- The kernel finds the magic number, the version and the size that it expects. -/
lemma validate_eq (h : Handoff fw kernelFile userFile ram boot info) :
    info.validate = .ok () := by
  obtain ⟨map, exitPort, henter⟩ := h.enters
  obtain ⟨_, -, henter⟩ := Checked.bind_eq_ok.mp henter
  obtain ⟨_, -, henter⟩ := Checked.bind_eq_ok.mp henter
  obtain rfl := Except.ok.inj henter
  rfl

/-- What is left to the firmware and the processor. -/
lemma accepted_iff (h : Handoff fw kernelFile userFile ram boot p.info) :
    p.Accepted ↔ p.info.hasMemoryMap = true ∧ p.info.rsdp ≠ 0 ∧ p.sgdt = ⟨63, p.gdtBase⟩ ∧
      cr4Osfxsr p.control = true := by
  constructor
  · exact fun haccepted =>
      ⟨haccepted.hasMemoryMap, haccepted.rsdp_ne, haccepted.sgdt_eq, haccepted.osfxsr⟩
  · rintro ⟨hmap, hrsdp, hsgdt, hosfxsr⟩
    exact ⟨h.validate_eq, hmap, h.kernel_fields.stop_lt, h.stack_le, hrsdp, hsgdt, hosfxsr⟩

/-- A byte of a segment belongs to the kernel image. -/
lemma has_kernel_of_segment (h : Handoff fw kernelFile userFile ram boot info) {segment : Segment}
    (hsegment : segment ∈ loads kernelFile) {q : ℕ} (hq : Has ⟨segment.paddr, segment.memsz⟩ q) :
    Has ⟨info.kernelBase.toNat, info.kernelSize.toNat⟩ q := by
  obtain ⟨hbase, hstop⟩ := h.kernel_fields.bounds segment hsegment
  exact ⟨(hbase.trans (pageStart_le segment)).trans hq.1,
    hq.2.trans_le ((le_pageStop segment).trans hstop)⟩

end Handoff

/-- **The loaded kernel stays intact.**  Let the boot loader load both images and hand over to the
kernel.  The kernel accepts the boot information and the processor if and only if the firmware has
given a memory map and the ACPI tables, and the processor has taken the descriptors and has
`FXSAVE`.  If the kernel starts, then in every state of every run no region that is in use for the
heap, for stacks or for frames meets the memory that the boot loader has filled with a segment of
the kernel file. -/
theorem loaded_kernel_intact {φ : Type} (fw : Firmware φ) (kernelFile userFile : Slice UInt8)
    (ram : Ram φ) (boot : Boot φ) (p : Platform)
    (hhandoff : Handoff fw kernelFile userFile ram boot p.info) :
    (p.Accepted ↔ p.info.hasMemoryMap = true ∧ p.info.rsdp ≠ 0 ∧ p.sgdt = ⟨63, p.gdtBase⟩ ∧
      cr4Osfxsr p.control = true) ∧
    ∀ start s, Returns (startUp p) start →
      Relation.ReflTransGen (Running.Step p.info) start.running s →
      ∀ R r, s.region start R = some r →
        ∀ segment ∈ loads kernelFile, ¬ Meets r ⟨segment.paddr, segment.memsz⟩ := by
  refine ⟨hhandoff.accepted_iff, ?_⟩
  rintro start s hstart hrun R r hR segment hsegment ⟨q, hq, hq'⟩
  obtain ⟨map, a₀, -, hinitial, hsafe⟩ := exists_safe hstart hrun
  refine hsafe.not_meets_bootMemory hinitial hR List.mem_cons_self ⟨q, hq, ?_⟩
  exact hhandoff.has_kernel_of_segment hsegment hq'

/-- The boot loader of the small machine, with ACPI tables. -/
lemma handoff_widePlatform : ∃ boot, Handoff grantFirmware lowKernel
    (twoPages 0x80000 0x100001000 0x81000) freshRam boot widePlatform.info := by
  have hboots : ((main grantFirmware (.ok lowKernel)
      (.ok (twoPages 0x80000 0x100001000 0x81000)) 0xE0000 freshRam).returnsAnd fun boot =>
      Checked.okAnd (enterKernel boot.kernel boot.user boot.prepared ⟨0x7000, 1, 40, 1⟩ 0)
        fun info => info = widePlatform.info ∧ boot.user.base + boot.user.size ≤ 2 ^ 52) =
          true := by
    decide +kernel
  obtain ⟨boot, hmain, henter⟩ := returnsAnd_eq_true_iff.mp hboots
  obtain ⟨info, henter, hinfo⟩ := Checked.okAnd_eq_true_iff.mp henter
  obtain ⟨rfl, hle⟩ := of_decide_eq_true hinfo
  exact ⟨boot, ⟨0xE0000, hmain⟩, ⟨_, _, henter⟩, hle⟩

/-- On the small machine the kernel starts, and the stacks for exceptions are not in its image. -/
theorem loaded_kernel_intact_wide : ∃ boot start,
    Handoff grantFirmware lowKernel (twoPages 0x80000 0x100001000 0x81000) freshRam boot
      widePlatform.info ∧
    widePlatform.Accepted ∧ Returns (startUp widePlatform) start ∧
    ∀ segment ∈ loads lowKernel, ¬ Meets start.ist ⟨segment.paddr, segment.memsz⟩ := by
  obtain ⟨boot, hhandoff⟩ := handoff_widePlatform
  obtain ⟨start, frames, hstart, -⟩ := startUp_widePlatform
  obtain ⟨haccepted, hintact⟩ := loaded_kernel_intact _ _ _ _ _ _ hhandoff
  refine ⟨boot, start, hhandoff, haccepted.mpr ⟨by decide, by decide, rfl, by decide⟩, hstart, ?_⟩
  exact hintact start start.running hstart .refl .ist _ rfl

end Kernel

end ParanukOS
