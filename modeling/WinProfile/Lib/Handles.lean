/-
  File:      WinProfile/Lib/Handles.lean
  Subject:   Open handles on a file under the sharing rule: an open goes through when every open
             handle allows its access and it allows theirs. Nothing here knows a program.

  * `SharedFile` -- what a file holds, the handles that are open on it, and whether it goes away
    with the last of them.
  * `opened`, `closed`, `marked` -- open, close, ask for the removal.
  * `closed_opened` -- a handle that is opened and closed leaves the file as it was.
-/
import Mathlib.Tactic

namespace WinProfile.Handles

/-! ## 1. Rights -/

/-- What a handle may do, or lets others do. -/
structure Rights where
  read : Bool := false
  write : Bool := false
  delete : Bool := false
  deriving DecidableEq, Repr

/-- Every right of `a` is in `s`. -/
def Rights.within (a s : Rights) : Bool :=
  (!a.read || s.read) && (!a.write || s.write) && (!a.delete || s.delete)

/-- A handle that is open: its number, and the access and the share mode it was opened with. -/
structure OpenHandle where
  number : Nat
  access : Rights
  share : Rights
  deriving DecidableEq, Repr

/-! ## 2. Files -/

/-- A file, the handles open on it, and whether it is removed when the last one closes. -/
structure SharedFile (β : Type) where
  body : β
  handles : List OpenHandle := []
  doomed : Bool := false
  deriving DecidableEq, Repr

namespace SharedFile

variable {β : Type}

/-- **The sharing rule.** -/
def admits (f : SharedFile β) (access share : Rights) : Bool :=
  f.handles.all fun h => h.access.within share && access.within h.share

/-- A number that no open handle has. -/
def freshNumber (f : SharedFile β) : Nat := (f.handles.map (·.number)).foldr max 0 + 1

def opened (f : SharedFile β) (access share : Rights) : SharedFile β :=
  { f with handles := ⟨f.freshNumber, access, share⟩ :: f.handles }

/-- The handle with this number. -/
def handle (f : SharedFile β) (number : Nat) : Option OpenHandle :=
  f.handles.find? fun h => h.number == number

/-- Close a handle; nothing is left of a doomed file when it was the last one. -/
def closed (f : SharedFile β) (number : Nat) : Option (SharedFile β) :=
  let rest := f.handles.filter fun h => h.number != number
  if f.doomed && rest.isEmpty then none else some { f with handles := rest }

/-- Ask for the removal of the file. -/
def marked (f : SharedFile β) : SharedFile β := { f with doomed := true }

theorem number_lt_fresh {f : SharedFile β} {h : OpenHandle} (hh : h ∈ f.handles) :
    h.number < f.freshNumber := by
  have hle : ∀ {l : List Nat} {n : Nat}, n ∈ l → n ≤ l.foldr max 0 := by
    intro l n hn
    induction l with
    | nil => cases hn
    | cons m l ih =>
      rcases List.mem_cons.mp hn with rfl | hn
      · exact le_max_left _ _
      · exact (ih hn).trans (le_max_right _ _)
  exact Nat.lt_succ_of_le (hle (List.mem_map_of_mem hh))

theorem filter_fresh (f : SharedFile β) :
    f.handles.filter (fun h => h.number != f.freshNumber) = f.handles := by
  refine List.filter_eq_self.mpr fun h hh => ?_
  have hlt := number_lt_fresh hh
  simp only [bne_iff_ne, ne_eq]
  omega

@[simp] theorem opened_body (f : SharedFile β) (access share : Rights) :
    (f.opened access share).body = f.body := rfl

@[simp] theorem opened_doomed (f : SharedFile β) (access share : Rights) :
    (f.opened access share).doomed = f.doomed := rfl

@[simp] theorem handle_opened (f : SharedFile β) (access share : Rights) :
    (f.opened access share).handle f.freshNumber = some ⟨f.freshNumber, access, share⟩ := by
  simp [handle, opened]

/-- **A handle that is opened and closed** leaves the file as it was. -/
theorem closed_opened (f : SharedFile β) (access share : Rights) (h : f.doomed = false) :
    (f.opened access share).closed f.freshNumber = some f := by
  obtain ⟨body, handles, doomed⟩ := f
  cases h
  simp only [closed, opened, Bool.false_and, Bool.false_eq_true, if_false, List.filter_cons,
    bne_self_eq_false]
  rw [filter_fresh ⟨body, handles, false⟩]

/-- A doomed file goes with its only handle. -/
theorem closed_marked {f : SharedFile β} {h : OpenHandle} (hf : f.handles = [h]) :
    f.marked.closed h.number = none := by
  simp [closed, marked, hf]

/-- A handle keeps out every open that does not share its access. -/
theorem not_admits {f : SharedFile β} {h : OpenHandle} (hh : h ∈ f.handles) {access share : Rights}
    (hs : h.access.within share = false) : f.admits access share = false := by
  refine Bool.eq_false_iff.mpr fun hall => ?_
  have := List.all_eq_true.mp hall h hh
  rw [hs] at this
  cases this

end SharedFile

end WinProfile.Handles
