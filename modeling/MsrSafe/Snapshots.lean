import MsrSafe.RestoreUndo
import MsrSafe.SaveFile
import MsrSafe.Lib.Snapshot

/-! Save files are snapshots of the registers: `msr_restore` puts the snapshot of
any file of the right length back, and `msr_save` takes one. -/

namespace MsrSafe

open Interleave

def Machine.store (m : Machine) (register : Nat × Addr) : Word := m.regs register.1 register.2

section Entries

variable {entries : List AllowlistEntry} {numCpu cpu t : Nat} {e : AllowlistEntry}
  {file : List UInt8}

end Entries

section Restore

variable {vfs : Word → Bool} {allow : AllowMap} {pl : Platform} {g : Globals}
  {entries : List AllowlistEntry} {numCpu : Nat} {file : List UInt8} {m : Machine}

variable (vfs entries numCpu) in
/-- Restores of files, one after the other, that succeed with nothing refused; the
driver's masks at each have the bits of the list. -/
inductive RestoreSeries : List (List UInt8) → Machine → Machine → Prop where
  | none (m : Machine) : RestoreSeries [] m m
  | restore {files : List (List UInt8)} {file : List UInt8} {m m' : Machine} {g : Globals}
      {allow : AllowMap} {pl : Platform} {faults : RestoreFaults} (shows : Shows g entries)
      (covers : ∀ e ∈ entries, Covers allow e) (before : RestoreSeries files m m')
      (finished : (run (kernel allow pl) (msrRestore vfs pl faults g numCpu file) m').1 =
        some (.ok ()))
      (granted : Along Granted (kernel allow pl) (msrRestore vfs pl faults g numCpu file) m') :
      RestoreSeries (files ++ [file]) m
        (run (kernel allow pl) (msrRestore vfs pl faults g numCpu file) m').2

end Restore

section Save

variable {vfs : Word → Bool} {pl : Platform} {allow : AllowMap} {g : Globals}
  {entries : List AllowlistEntry} {numCpu : Nat}

end Save

section Returned

variable {entries : List AllowlistEntry} (distinct : (entries.map AllowlistEntry.register).Nodup)
  {vfs : Word → Bool} {numCpu : Nat} {files : List (List UInt8)} {m m' : Machine}

theorem RestoreSeries.size (series : RestoreSeries vfs entries numCpu files m m') :
    ∀ file ∈ files, file.length = 8 * (entries.length * numCpu) := by
  induction series with
  | none => exact fun _ member => absurd member List.not_mem_nil
  | restore shows covers before finished granted ih =>
      intro file member
      rcases List.mem_append.mp member with earlier | last
      · exact ih file earlier
      · obtain ⟨buffer, read, -⟩ := msrRestore_restores shows (Prod.ext finished rfl)
        rw [List.mem_singleton.mp last]
        exact (readFile_ok read).2.2.1

include distinct

end Returned

end MsrSafe
