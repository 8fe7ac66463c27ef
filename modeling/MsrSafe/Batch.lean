import MsrSafe.Kernel
import Mathlib.Data.List.Basic

/-! The batch device: the check pass of msr_batch.c, the dispatch of msr-smp.c
and the ioctl around them. -/

namespace MsrSafe

open Interleave

/-- `struct msr_batch_array`; `numops` is the length of `ops`. -/
structure MsrBatchArray where
  version : BitVec 32
  ops : List MsrBatchOp

/-- `_IOWR('c', 0xA2, struct msr_batch_array)`. -/
def X86_IOC_MSR_BATCH : BitVec 32 := 0xC01063A2

/-- One turn of the check loop: the op with its verdict, and the loop's `err`. -/
def msrbatchCheckOp (pl : Platform) (op : MsrBatchOp) (err : Int) :
    Prog Msr (MsrBatchOp × Int) := do
  let op := { op with err := 0 }
  if pl.nrCpuIds ≤ op.cpu.toNat || !pl.cpuOnline op.cpu.toNat then
    return ({ op with err := Errno.enxio.ret }, Errno.enxio.ret)
  if !(← Msr.maskexists (op.msr.setWidth 64)) then
    return ({ op with err := Errno.eacces.ret }, Errno.eacces.ret)
  let op := { op with wmask := ← Msr.writemask (op.msr.setWidth 64) }
  if op.wmask = 0 && op.isrdmsr = 0 then
    return ({ op with err := Errno.erofs.ret }, Errno.erofs.ret)
  return (op, err)

def msrbatchApplyAllowlist (pl : Platform) : List MsrBatchOp → Int →
    Prog Msr (List MsrBatchOp × Int)
  | [], err => .done ([], err)
  | op :: ops, err => do
    let (op, err) ← msrbatchCheckOp pl op err
    let (ops, err) ← msrbatchApplyAllowlist pl ops err
    return (op :: ops, err)

structure Handlers where
  next : Nat → Nat
  ops : List MsrBatchOp

/-- The handler `__msr_safe_batch` on processor `cpu` takes its next op:
another processor's op is passed over. -/
def handlerStep (cpu : Nat) (h : Handlers) : Prog Msr Handlers :=
  match h.ops[h.next cpu]? with
  | none => .done h
  | some op =>
    if op.cpu.toNat ≠ cpu then
      .done { h with next := Function.update h.next cpu (h.next cpu + 1) }
    else do
      let op ← Msr.batchOp cpu op
      return { next := Function.update h.next cpu (h.next cpu + 1)
               ops := h.ops.set (h.next cpu) op }

def cpusToRunOn (ops : List MsrBatchOp) (cpu : Nat) : Bool :=
  ops.any fun op => op.cpu.toNat = cpu

/-- The handlers move in the order of `schedule`; one that is not dispatched,
because its processor is outside the mask or offline, does not move. -/
def runHandlers (pl : Platform) (mask : Nat → Bool) : List Nat → Handlers → Prog Msr Handlers
  | [], h => .done h
  | cpu :: schedule, h =>
    if mask cpu && pl.online cpu then do
      let h ← handlerStep cpu h
      runHandlers pl mask schedule h
    else runHandlers pl mask schedule h

/-- `on_each_cpu_mask` with `wait` set: `schedule` is any prefix of the
interleaving, and the call returns once the handlers left over are through. -/
def onEachCpuMask (pl : Platform) (mask : Nat → Bool) (schedule : List Nat)
    (ops : List MsrBatchOp) : Prog Msr (List MsrBatchOp) := do
  let drain := (List.range pl.nrCpuIds).flatMap (List.replicate ops.length)
  let h ← runHandlers pl mask (schedule ++ drain) { next := fun _ => 0, ops := ops }
  return h.ops

def firstErr : List MsrBatchOp → Int
  | [] => 0
  | op :: ops => if op.err ≠ 0 then op.err else firstErr ops

def msrSafeBatch (pl : Platform) (maskAllocated : Bool) (schedule : List Nat)
    (ops : List MsrBatchOp) : Prog Msr (List MsrBatchOp × Int) := do
  if !maskAllocated then
    return (ops, Errno.enomem.ret)
  let ops ← onEachCpuMask pl (cpusToRunOn ops) schedule ops
  return (ops, firstErr ops)

/-- An ioctl: its command word, the mode of the file, how the kernel's
allocations and user copies turn out, and the order the handlers run in. -/
structure IoctlCall where
  ioc : BitVec 32
  fmodeRead : Bool
  descCopied : Bool
  opsAllocated : Bool
  opsCopiedIn : Bool
  maskAllocated : Bool
  opsCopiedOut : Bool
  schedule : List Nat

def msrbatchExecute (pl : Platform) (call : IoctlCall) (ops : List MsrBatchOp) (err : Int) :
    Prog Msr (List MsrBatchOp × Int) :=
  if err ≠ 0 then .done (ops, err)
  else msrSafeBatch pl call.maskAllocated call.schedule ops

/-- A `copy_to_user` that copies a part of the array counts as one that fails. -/
def copyoutAndReturn (call : IoctlCall) (ops : List MsrBatchOp) (err : Int) :
    Int × Option (List MsrBatchOp) :=
  if !call.opsCopiedOut then (if err = 0 then Errno.efault.ret else err, none)
  else (err, some ops)

/-- The return value and, when it was copied out, the array the caller gets
back. `checked` is the platform during the check pass and `pl` the one at
dispatch. -/
def msrbatchIoctl (checked pl : Platform) (call : IoctlCall) (oa : MsrBatchArray) :
    Prog Msr (Int × Option (List MsrBatchOp)) := do
  if call.ioc ≠ X86_IOC_MSR_BATCH then
    return (Errno.enotty.ret, none)
  if !call.fmodeRead then
    return (Errno.ebadf.ret, none)
  if !call.descCopied then
    return (Errno.efault.ret, none)
  if oa.ops.length = 0 then
    return (Errno.einval.ret, none)
  if !call.opsAllocated then
    return (Errno.e2big.ret, none)
  if !call.opsCopiedIn then
    return (Errno.efault.ret, none)
  let (ops, err) ← msrbatchApplyAllowlist checked oa.ops 0
  let (ops, err) ← msrbatchExecute pl call ops err
  return copyoutAndReturn call ops err

end MsrSafe
