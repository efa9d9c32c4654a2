import Understudy.Generation
import Understudy.Proofs.Clearing
import Understudy.Provider.Scripted

/-!
# Understudy.Proofs.Fatal

What the fatal errors of a run leave behind. That the source is missing is found out at two points
of a run, and that the extension makes no pattern at one. Only the first point lies before the
destination is prepared: a source that is no directory leaves the tree as it was. The others lie
behind it, and the destination stays as it was prepared, made and cleared.

The second point is only reached if clearing takes the source away, or a directory on its way. That
takes a recursive clearing, as any other one leaves all directories (`Leaves.directory`), and a way
to a directory passes directories only (`Leads.of_directories`).
-/

namespace Understudy

open FileTree

/-! ### Clearing files only -/

variable {t u : FileTree} {refusals : Refusals} {k : Location}

/-- A clearing that is not recursive leaves all directories. -/
theorem Clearing.Leaves.directory {p : Path} {directory : Location} (ht : t.Plain)
    (hresolve : t.resolve p = .ok directory) (hdirectory : t.get? directory = some .directory)
    (h : Leaves (Takes refusals false p t directory) t u) (hk : t.get? k = some .directory) :
    u.get? k = some .directory := by
  rw [h.kept k ?_, hk]
  intro htakes
  obtain ⟨name, e, rest, rfl, -, hentry, hasked, -⟩ := htakes.exists_entry ht hresolve hdirectory
  -- the entry that is taken away would be a directory itself, as `k` is one
  have hsame : t.get? (directory ++ [name]) = some .directory := by
    cases rest with
    | nil => exact hk
    | cons other rest =>
        rw [List.append_cons] at hk
        exact ht.rooted.get?_of_append_cons (hk.trans_ne (Option.some_ne_none _))
  rw [hentry, Option.some_inj] at hsame
  exact Bool.false_ne_true (hasked hsame)

namespace Generation

variable {σ : Type} {s : Settings} {p : Provider σ} {start : Declaration → σ} {failure : Failure}

/-- A source that lies in the destination. -/
def nested : FileTree where
  entries := [(["out"], .directory), (["out", "src"], .directory)]

end Generation

end Understudy
