import Mathlib

/-! Files under names. A name is linked to an inode, whose lines a process that has opened the file
reads on after the name is gone. -/

namespace WorkTicket.Files

structure File (α : Type*) where
  lines : List α
  mtime : ℕ

structure Disk (ν α : Type*) where
  dir : List (ν × ℕ)
  data : ℕ → File α
  next : ℕ
  names : (dir.map Prod.fst).Nodup
  inodes : (dir.map Prod.snd).Nodup
  linked : ∀ p ∈ dir, p.2 < next

variable {ν α β : Type*} [DecidableEq ν] {d : Disk ν α} {name : ν} {i now : ℕ} {line : α}

def Disk.find? (d : Disk ν α) (name : ν) : Option ℕ := d.dir.lookup name

def Disk.map (f : α → β) (d : Disk ν α) : Disk ν β :=
  { d with data := fun i => ⟨(d.data i).lines.map f, (d.data i).mtime⟩ }

theorem Disk.mem_of_find? (h : d.find? name = some i) : (name, i) ∈ d.dir := by
  obtain ⟨before, after, hdir, -⟩ := List.lookup_eq_some_iff.mp h
  rw [hdir]
  exact List.mem_append_right _ List.mem_cons_self

theorem Disk.not_mem_of_find? (h : d.find? name = none) : (name, i) ∉ d.dir := by
  intro hmem
  have hne := List.lookup_eq_none_iff.mp h _ hmem
  simp at hne

def Disk.addLine (d : Disk ν α) (now i : ℕ) (line : α) : Disk ν α :=
  { d with data := Function.update d.data i ⟨(d.data i).lines ++ [line], now⟩ }

/-- A new file of one line. -/
def Disk.create (d : Disk ν α) (now : ℕ) (name : ν) (line : α) (hnew : d.find? name = none) :
    Disk ν α where
  dir := (name, d.next) :: d.dir
  data := Function.update d.data d.next ⟨[line], now⟩
  next := d.next + 1
  names := by
    refine List.nodup_cons.mpr ⟨fun hmem => ?_, d.names⟩
    obtain ⟨⟨name', i⟩, hp, rfl⟩ := List.mem_map.mp hmem
    exact Disk.not_mem_of_find? hnew hp
  inodes := by
    refine List.nodup_cons.mpr ⟨fun hmem => ?_, d.inodes⟩
    obtain ⟨p, hp, hnext⟩ := List.mem_map.mp hmem
    exact (d.linked p hp).ne hnext
  linked := by
    intro p hp
    rcases List.mem_cons.mp hp with rfl | hp
    · exact Nat.lt_succ_self _
    · exact (d.linked p hp).trans (Nat.lt_succ_self _)

/-- A line written to a file that is opened for appending. -/
def Disk.append (d : Disk ν α) (now : ℕ) (name : ν) (line : α) : Disk ν α :=
  match h : d.find? name with
  | some i => d.addLine now i line
  | none => d.create now name line h

def Disk.remove (d : Disk ν α) (name : ν) : Disk ν α where
  dir := d.dir.filter fun p => p.1 ≠ name
  data := d.data
  next := d.next
  names := d.names.sublist (List.filter_sublist.map _)
  inodes := d.inodes.sublist (List.filter_sublist.map _)
  linked := fun p hp => d.linked p (List.mem_of_mem_filter hp)

/-! ## Files that never mix

The names `W` are written by others: what is not `clean` gets only under them, and stays there as
long as no process takes a line of theirs. -/

section
variable {W : ν → Prop} {clean : α → Prop}

/-- An inode of clean lines that no name of `W` is linked to. -/
structure Apart (W : ν → Prop) (clean : α → Prop) (d : Disk ν α) (i : ℕ) : Prop where
  used : i < d.next
  lines : ∀ line ∈ (d.data i).lines, clean line
  unlinked : ∀ name, (name, i) ∈ d.dir → ¬W name

def Separated (W : ν → Prop) (clean : α → Prop) (d : Disk ν α) : Prop :=
  ∀ name i, (name, i) ∈ d.dir → ¬W name → Apart W clean d i

omit [DecidableEq ν] in
theorem separated_of_clean (h : ∀ i, ∀ line ∈ (d.data i).lines, clean line) :
    Separated W clean d := by
  intro name i hp hname
  refine ⟨d.linked _ hp, h i, fun name' hp' => ?_⟩
  have hsame : (name', i) = (name, i) := List.inj_on_of_nodup_map d.inodes hp' hp rfl
  cases hsame
  exact hname

/-- Writing under a name leaves an inode apart, unless it is linked to it. -/
theorem Apart.append_of_ne (h : Apart W clean d i) (hne : d.find? name ≠ some i) :
    Apart W clean (d.append now name line) i := by
  unfold Disk.append
  split
  · rename_i j hj
    have hij : i ≠ j := by
      rintro rfl
      exact hne hj
    refine ⟨h.used, ?_, h.unlinked⟩
    simpa [Disk.addLine, hij] using h.lines
  · have hij : i ≠ d.next := h.used.ne
    refine ⟨h.used.trans (Nat.lt_succ_self _), ?_, fun name' hp => ?_⟩
    · simpa [Disk.create, hij] using h.lines
    · rcases List.mem_cons.mp hp with hnew | hold
      · cases hnew
        exact absurd rfl hij
      · exact h.unlinked name' hold

theorem Apart.append_other (h : Apart W clean d i) (hname : W name) :
    Apart W clean (d.append now name line) i := by
  refine h.append_of_ne fun hfound => ?_
  exact h.unlinked name (Disk.mem_of_find? hfound) hname

theorem Apart.append_clean (h : Apart W clean d i) (hline : clean line) :
    Apart W clean (d.append now name line) i := by
  by_cases hfound : d.find? name = some i
  · unfold Disk.append
    split
    · rename_i j hj
      obtain rfl : i = j := Option.some.inj (hfound.symm.trans hj)
      refine ⟨h.used, fun line' hline' => ?_, h.unlinked⟩
      simp only [Disk.addLine, Function.update_self, List.mem_append, List.mem_singleton] at hline'
      rcases hline' with hold | rfl
      · exact h.lines line' hold
      · exact hline
    · rename_i hnone
      rw [hfound] at hnone
      cases hnone
  · exact h.append_of_ne hfound

theorem Apart.remove (h : Apart W clean d i) : Apart W clean (d.remove name) i :=
  ⟨h.used, h.lines, fun name' hp => h.unlinked name' (List.mem_of_mem_filter hp)⟩

theorem mem_dir_append {p : ν × ℕ} (hp : p ∈ (d.append now name line).dir) :
    p ∈ d.dir ∨ p = (name, d.next) := by
  unfold Disk.append at hp
  split at hp
  · exact .inl hp
  · rcases List.mem_cons.mp hp with hnew | hold
    · exact .inr hnew
    · exact .inl hold

theorem Separated.append_other (h : Separated W clean d) (hname : W name) :
    Separated W clean (d.append now name line) := by
  intro name' i hp hname'
  rcases mem_dir_append hp with hold | hnew
  · exact (h name' i hold hname').append_other hname
  · cases hnew
    exact absurd hname hname'

theorem Separated.append_clean (h : Separated W clean d) (hline : clean line) :
    Separated W clean (d.append now name line) := by
  intro name' i hp hname'
  by_cases hold : (name', i) ∈ d.dir
  · exact (h name' i hold hname').append_clean hline
  · unfold Disk.append at hp ⊢
    split at hp
    · exact absurd hp hold
    · refine ⟨(d.create now name line _).linked _ hp, fun line' hline' => ?_, fun name'' hp' => ?_⟩
      · obtain ⟨-, rfl⟩ := Prod.mk.inj ((List.mem_cons.mp hp).resolve_right hold)
        simp only [Disk.create, Function.update_self, List.mem_singleton] at hline'
        exact hline' ▸ hline
      · have hsame := List.inj_on_of_nodup_map (d.create now name line _).inodes hp' hp rfl
        exact (Prod.mk.inj hsame).1 ▸ hname'

theorem Separated.remove (h : Separated W clean d) : Separated W clean (d.remove name) :=
  fun name' i hp hname' => (h name' i (List.mem_of_mem_filter hp) hname').remove

end

end WorkTicket.Files
