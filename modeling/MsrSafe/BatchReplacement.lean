import MsrSafe.AllowlistInvariant
import MsrSafe.BatchCheck
import Mathlib.Data.List.Forall2

/-! The check pass of a batch while the allowlist is replaced: every lookup is
a critical section of its own, so writes can run between any two of them. -/

namespace MsrSafe

open Interleave

/-- A store that is written while a call makes its lookups: the writes that run
before each lookup still to come, and every store since the call's first lookup. -/
structure Contended where
  globals : Globals
  upcoming : List (List WriteCall)
  moments : List Globals
  machine : Machine

namespace Contended

def replace (bucket : Word → Fin 64) (s : Contended) (call : WriteCall) : Contended :=
  let g := (writeAllowlist bucket call s.globals).1
  { s with globals := g, moments := g :: s.moments }

def interfere (bucket : Word → Fin 64) (s : Contended) : Contended :=
  match s.upcoming with
  | [] => s
  | calls :: rest => calls.foldl (replace bucket) { s with upcoming := rest }

end Contended

def contendedKernel (bucket : Word → Fin 64) (pl : Platform) : Handler Msr Contended
  | .maskexists reg, s =>
    (msrAllowlistMaskexists bucket (s.interfere bucket).globals reg, s.interfere bucket)
  | .writemask reg, s =>
    (msrAllowlistWritemask bucket (s.interfere bucket).globals reg, s.interfere bucket)
  | action, s =>
    ((kernel .empty pl action s.machine).1,
      { s with machine := (kernel .empty pl action s.machine).2 })

/-- The check pass from its first lookup on, in a store `g` that `between` writes
to before its second lookup, its third and so on. -/
def checkUnderWrites (bucket : Word → Fin 64) (pl : Platform) (ops : List MsrBatchOp) (g : Globals)
    (between : List (List WriteCall)) (m : Machine) : (List MsrBatchOp × Int) × Contended :=
  run (contendedKernel bucket pl) (msrbatchApplyAllowlist pl ops 0)
    { globals := g, upcoming := [] :: between, moments := [g], machine := m }

def JudgedBy (allow : AllowMap) (pl : Platform) (op op' : MsrBatchOp) : Prop :=
  op'.err = (refusal allow pl op).elim 0 Errno.ret ∧
    (pl.online op.cpu.toNat = true → allow.maskexists (op.msr.setWidth 64) = true →
      op'.wmask = allow.writemask (op.msr.setWidth 64))

instance (allow : AllowMap) (pl : Platform) (op op' : MsrBatchOp) :
    Decidable (JudgedBy allow pl op op') :=
  inferInstanceAs (Decidable (_ ∧ _))

/-- None of the writes, one after the other, changes what the store lists for
an address of the batch. -/
def Untouched (bucket : Word → Fin 64) (ops : List MsrBatchOp) : Globals → List WriteCall → Prop
  | _, [] => True
  | g, call :: calls =>
    (∀ op ∈ ops, (writeAllowlist bucket call g).1.allowMap bucket (op.msr.setWidth 64) =
      g.allowMap bucket (op.msr.setWidth 64)) ∧
    Untouched bucket ops (writeAllowlist bucket call g).1 calls

section Judge

variable {bucket : Word → Fin 64} {pl : Platform} {ops : List MsrBatchOp} {judge : Globals}

structure AgreesWith (bucket : Word → Fin 64) (ops : List MsrBatchOp) (judge : Globals)
    (s : Contended) : Prop where
  same : ∀ op ∈ ops, s.globals.allowMap bucket (op.msr.setWidth 64) =
    judge.allowMap bucket (op.msr.setWidth 64)
  quiet : Untouched bucket ops s.globals s.upcoming.flatten
  seen : judge ∈ s.moments

theorem AgreesWith.replaces (calls : List WriteCall) {rest : List WriteCall} {s : Contended}
    (same : ∀ op ∈ ops, s.globals.allowMap bucket (op.msr.setWidth 64) =
      judge.allowMap bucket (op.msr.setWidth 64))
    (quiet : Untouched bucket ops s.globals (calls ++ rest)) (seen : judge ∈ s.moments)
    (upcoming : s.upcoming.flatten = rest) :
    AgreesWith bucket ops judge (calls.foldl (Contended.replace bucket) s) ∧
      (calls.foldl (Contended.replace bucket) s).machine = s.machine := by
  induction calls generalizing s with
  | nil =>
      subst upcoming
      exact ⟨⟨same, quiet, seen⟩, rfl⟩
  | cons call calls ih =>
      exact ih (fun op member => (quiet.1 op member).trans (same op member)) quiet.2
        (List.mem_cons_of_mem _ seen) upcoming

theorem AgreesWith.interfere {s : Contended} (agrees : AgreesWith bucket ops judge s) :
    AgreesWith bucket ops judge (s.interfere bucket) ∧
      (s.interfere bucket).machine = s.machine := by
  rw [Contended.interfere]
  split
  · exact ⟨agrees, rfl⟩
  · rename_i calls rest upcoming
    have quiet := agrees.quiet
    rw [upcoming, List.flatten_cons] at quiet
    exact AgreesWith.replaces calls (s := { s with upcoming := rest }) agrees.same quiet
      agrees.seen rfl

def LooksUp (ops : List MsrBatchOp) : MsrAction → Prop
  | .maskexists reg => ∃ op ∈ ops, reg = op.msr.setWidth 64
  | .writemask reg => ∃ op ∈ ops, reg = op.msr.setWidth 64
  | _ => False

theorem looksUp_apply (pl : Platform) (batch : List MsrBatchOp) (err : Int)
    (inside : ∀ op ∈ batch, op ∈ ops) :
    Guarded (LooksUp ops) (fun _ _ => True) (fun _ => True)
      (msrbatchApplyAllowlist pl batch err) := by
  induction batch generalizing err with
  | nil => trivial
  | cons op batch ih =>
      have member := inside op (by simp)
      have check : Guarded (LooksUp ops) (fun _ _ => True) (fun _ => True)
          (msrbatchCheckOp pl op err) := by
        rw [msrbatchCheckOp_eq]
        split
        · trivial
        · refine ⟨⟨op, member, rfl⟩, fun listed _ => ?_⟩
          dsimp only
          split
          · trivial
          · refine ⟨⟨op, member, rfl⟩, fun mask _ => ?_⟩
            dsimp only
            split <;> trivial
      rw [msrbatchApplyAllowlist]
      refine guarded_bind _ _ check fun first _ => ?_
      refine guarded_bind _ _ (ih first.2 fun op' listed => inside op' (by simp [listed])) ?_
      exact fun _ _ => trivial

theorem contendedKernel_agrees (action : MsrAction) (s : Contended) (m : Machine)
    (looks : LooksUp ops action) (agrees : AgreesWith bucket ops judge s) (same : s.machine = m) :
    (contendedKernel bucket pl action s).1 = (kernel (judge.allowMap bucket) pl action m).1 ∧
      AgreesWith bucket ops judge (contendedKernel bucket pl action s).2 ∧
      (contendedKernel bucket pl action s).2.machine =
        (kernel (judge.allowMap bucket) pl action m).2 := by
  obtain ⟨after, kept⟩ := agrees.interfere
  cases action with
  | maskexists reg =>
      obtain ⟨op, member, rfl⟩ := looks
      refine ⟨?_, after, kept.trans same⟩
      dsimp only [contendedKernel, kernel]
      rw [← maskexists_allowMap, AllowMap.maskexists, AllowMap.maskexists, after.same op member]
  | writemask reg =>
      obtain ⟨op, member, rfl⟩ := looks
      refine ⟨?_, after, kept.trans same⟩
      dsimp only [contendedKernel, kernel]
      rw [← writemask_allowMap, AllowMap.writemask, AllowMap.writemask, after.same op member]
  | rdmsr cpu reg => exact False.elim looks
  | wrmsr cpu reg value => exact False.elim looks
  | batchOp cpu op => exact False.elim looks

end Judge

theorem judgedBy_checkedOp (allow : AllowMap) (pl : Platform) (op : MsrBatchOp) :
    JudgedBy allow pl op (checkedOp allow pl op) := by
  refine ⟨rfl, fun online listed => ?_⟩
  rw [checkedOp]
  rw [online, listed]
  rfl

/-- A batch is judged by the list in force at its first lookup, when the writes
that run before its later lookups leave alone what is listed for its addresses. -/
theorem batch_judged_by_one_list (bucket : Word → Fin 64) (pl : Platform) (ops : List MsrBatchOp)
    (g : Globals) (between : List (List WriteCall)) (m : Machine)
    (untouched : Untouched bucket ops g between.flatten) :
    ∃ judge ∈ (checkUnderWrites bucket pl ops g between m).2.moments,
      List.Forall₂ (JudgedBy (judge.allowMap bucket) pl) ops
        (checkUnderWrites bucket pl ops g between m).1.1 := by
  have agrees : AgreesWith bucket ops g
      { globals := g, upcoming := [] :: between, moments := [g], machine := m } :=
    ⟨fun _ _ => rfl, untouched, List.mem_singleton_self g⟩
  obtain ⟨result, after, -⟩ := run_simulates (contendedKernel bucket pl)
    (kernel (g.allowMap bucket) pl)
    (fun s m => AgreesWith bucket ops g s ∧ s.machine = m)
    (fun action s m looks related => contendedKernel_agrees action s m looks related.1 related.2)
    (msrbatchApplyAllowlist pl ops 0) _ m ⟨agrees, rfl⟩
    (looksUp_apply pl ops 0 fun _ member => member)
  refine ⟨g, after.seen, ?_⟩
  rw [checkUnderWrites]
  rw [result, run_msrbatchApplyAllowlist]
  dsimp only
  rw [List.forall₂_map_right_iff]
  exact List.forall₂_same.mpr fun op _ => judgedBy_checkedOp _ pl op

def plainWrite (text : List Char) : WriteCall := ⟨text.map ascii, true, true, true⟩

def list16 : Globals := storeAfter (fun _ => 0) [plainWrite ['1', '6', ' ', '1', ' ']]

theorem batch_judged_by_one_list_same_entry :
    let ops : List MsrBatchOp := [⟨0, 1, 0, 16, 0, 0⟩, ⟨0, 0, 0, 16, 3, 0⟩]
    let between := [[plainWrite ['3', '2', ' ', '1', '\n', '1', '6', ' ', '1', ' ']], [], []]
    ∃ judge ∈
        (checkUnderWrites (fun _ => 0) oneProcessor ops list16 between ⟨fun _ _ => 0, []⟩).2.moments,
      List.Forall₂ (JudgedBy (judge.allowMap fun _ => 0) oneProcessor) ops
        (checkUnderWrites (fun _ => 0) oneProcessor ops list16 between ⟨fun _ _ => 0, []⟩).1.1 := by
  intro ops between
  exact batch_judged_by_one_list (fun _ => 0) oneProcessor ops list16 between _
    ⟨by decide, trivial⟩

/-- Between the lookups for address 16 and those for address 32, a list with 16
alone gives way to one with 32 alone: both ops pass, and no list has both. -/
theorem batch_judged_by_two_lists :
    ¬∀ (bucket : Word → Fin 64) (pl : Platform) (ops : List MsrBatchOp) (calls : List WriteCall)
        (between : List (List WriteCall)) (m : Machine),
      ∃ judge ∈ (checkUnderWrites bucket pl ops (storeAfter bucket calls) between m).2.moments,
        List.Forall₂ (JudgedBy (judge.allowMap bucket) pl) ops
          (checkUnderWrites bucket pl ops (storeAfter bucket calls) between m).1.1 := by
  intro always
  exact absurd (always (fun _ => 0) oneProcessor [⟨0, 1, 0, 16, 0, 0⟩, ⟨0, 1, 0, 32, 0, 0⟩]
    [plainWrite ['1', '6', ' ', '1', ' ']] [[], [plainWrite ['3', '2', ' ', '1', ' ']]]
    ⟨fun _ _ => 0, []⟩) (by decide)

end MsrSafe
