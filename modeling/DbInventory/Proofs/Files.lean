/-
# DbInventory.Proofs.Files -- where a path leads, and what saving there does

`FileTree.Places` says that a path names a place for a file: its directories are there, and no
directory stands at the place itself. That is all it takes to write (`Places.write_eq`), and the
place is found again after a file was put there (`Places.find_insert`) or taken away
(`Places.erase`), since no directory on the way changes. So a file is replaced as a whole or,
where the path has no place, not at all (`saveResult_of_places`, `writable_of_saveResult`).
-/

import DbInventory.Proofs.Except
import DbInventory.ResultFile

namespace DbInventory

namespace FileTree

variable {t t' : FileTree} {path : String} {l m : Location} {name : String}

/-! ## Nodes after a change -/

theorem node?_insert (t : FileTree) (l m : Location) (n : FileNode) :
    (t.insert l n).node? m =
      if m = [] then some .directory else if m.text = l.text then some n else t.node? m := by
  simp only [node?, insert, Dict.get?_insert]
  split <;> rfl

theorem node?_erase (t : FileTree) (l m : Location) :
    (t.erase l).node? m =
      if m = [] then some .directory else if m.text = l.text then none else t.node? m := by
  simp only [node?, erase, Dict.get?_erase]
  split <;> rfl

/-- Taking a file away before another is put there makes no difference. -/
theorem insert_erase (t : FileTree) (l : Location) (n : FileNode) :
    (t.erase l).insert l n = t.insert l n := by
  simp only [insert, erase, FileTree.mk.injEq, true_and]
  refine Dict.ext_get? fun k => ?_
  simp only [Dict.get?_insert, Dict.get?_erase]
  split <;> rfl

/-! ## Ways through directories -/

/-- The directories of a tree are directories of another. -/
def KeepsDirectories (t t' : FileTree) : Prop :=
  ∀ m, t.node? m = some .directory → t'.node? m = some .directory

/-- No directory has its name where none stands. -/
theorem text_ne_of_directory (hl : t.node? l ≠ some .directory)
    (hm : t.node? m = some .directory) (hroot : m ≠ []) : m.text ≠ l.text := by
  intro htext
  rw [node?, if_neg hroot, htext] at hm
  apply hl
  rw [node?, hm]
  split <;> rfl

/-- A change where no directory stands keeps all directories. -/
theorem keepsDirectories_insert (n : FileNode) (hl : t.node? l ≠ some .directory) :
    KeepsDirectories t (t.insert l n) := by
  intro m hm
  rw [node?_insert]
  split
  · rfl
  next hroot => rw [if_neg (text_ne_of_directory hl hm hroot), hm]

theorem keepsDirectories_erase (hl : t.node? l ≠ some .directory) :
    KeepsDirectories t (t.erase l) := by
  intro m hm
  rw [node?_erase]
  split
  · rfl
  next hroot => rw [if_neg (text_ne_of_directory hl hm hroot), hm]

theorem child_directory (h : KeepsDirectories t t')
    (hchild : t.child l name = .ok (m, some .directory)) :
    t'.child l name = .ok (m, some .directory) := by
  unfold child at hchild ⊢
  by_cases hdot : name = "."
  · rwa [if_pos hdot] at hchild ⊢
  · by_cases hup : name = ".."
    · rwa [if_neg hdot, if_pos hup] at hchild ⊢
    · rw [if_neg hdot, if_neg hup] at hchild ⊢
      split at hchild
      · cases hchild
      next hlength =>
        obtain ⟨rfl, hnode⟩ := Prod.mk.inj (Except.ok.inj hchild)
        rw [if_neg hlength, h _ hnode]

/-- A way through directories stays a way. -/
theorem descend_eq (h : KeepsDirectories t t') {names : List String} :
    ∀ {l : Location}, t.descend l names = .ok m → t'.descend l names = .ok m := by
  -- only directories are met on the way, and the change keeps them
  induction names with
  | nil => intro l hl; exact hl
  | cons name names ih =>
    intro l hl
    rw [descend] at hl ⊢
    cases hchild : t.child l name with
    | error fault => rw [hchild] at hl; cases hl
    | ok r =>
      obtain ⟨next, _ | node⟩ := r
      · rw [hchild] at hl; cases hl
      · cases node with
        | file content => rw [hchild] at hl; cases hl
        | directory =>
          rw [hchild] at hl
          rw [child_directory h hchild]
          exact ih hl

/-! ## Places -/

/-- The path names a place for a file: the way there is one of directories, the name is not
that of a directory, and no slash follows it. -/
structure Places (t : FileTree) (path : String) (l : Location) : Prop where
  intro ::
  way : ∃ (p : FilePath) (parent : Location) (name : String),
    FilePath.ofText path = .ok p ∧ t.parent p = .ok parent ∧ p.last = some name ∧
    p.endsInSlash = false ∧ name ≠ "." ∧ name ≠ ".." ∧ name.utf8ByteSize ≤ FilePath.maxName ∧
    l = parent ++ [name]
  free : t.node? l ≠ some .directory

/-- The child of a name that is no way up and not too long. -/
theorem child_eq (t : FileTree) (l : Location) (hdot : name ≠ ".") (hup : name ≠ "..")
    (hlength : name.utf8ByteSize ≤ FilePath.maxName) :
    t.child l name = .ok (l ++ [name], t.node? (l ++ [name])) := by
  rw [child, if_neg hdot, if_neg hup, if_neg (Nat.not_lt.2 hlength)]

/-- A child that is no directory has such a name. -/
theorem child_of_not_directory {n : Option FileNode} (h : t.child l name = .ok (m, n))
    (hn : n ≠ some .directory) :
    name ≠ "." ∧ name ≠ ".." ∧ name.utf8ByteSize ≤ FilePath.maxName ∧ m = l ++ [name] ∧
      n = t.node? (l ++ [name]) := by
  simp only [child] at h
  split at h
  · cases h; exact absurd rfl hn
  · split at h
    · cases h; exact absurd rfl hn
    · split at h
      · cases h
      · simp only [Except.ok.injEq, Prod.mk.injEq] at h
        exact ⟨‹_›, ‹_›, Nat.not_lt.1 ‹_›, h.1.symm, h.2.symm⟩

/-- A place stays one while the directories do. -/
theorem Places.of_keepsDirectories (h : t.Places path l) (hkeeps : KeepsDirectories t t')
    (hworking : t'.workingDirectory = t.workingDirectory)
    (hfree : t'.node? l ≠ some .directory) : t'.Places path l := by
  obtain ⟨⟨p, parent, name, hpath, hparent, hrest⟩, -⟩ := h
  refine ⟨⟨p, parent, name, hpath, ?_, hrest⟩, hfree⟩
  rw [FileTree.parent, hworking]
  exact descend_eq hkeeps hparent

theorem Places.ne_nil (h : t.Places path l) : l ≠ [] := by
  obtain ⟨⟨p, parent, name, -, -, -, -, -, -, -, rfl⟩, -⟩ := h
  simp

theorem Places.erase (h : t.Places path l) : (t.erase l).Places path l := by
  apply h.of_keepsDirectories (keepsDirectories_erase h.free) rfl
  rw [node?_erase, if_neg h.ne_nil, if_pos rfl]
  simp

theorem Places.insert_file (h : t.Places path l) (content : String) :
    (t.insert l (.file content)).Places path l := by
  apply h.of_keepsDirectories (keepsDirectories_insert _ h.free) rfl
  rw [node?_insert, if_neg h.ne_nil, if_pos rfl]
  simp

/-- Writing to a place puts the file there. -/
theorem Places.write_eq (h : t.Places path l) (content : String) :
    t.write path content = .ok (t.insert l (.file content)) := by
  obtain ⟨⟨p, parent, name, hpath, hparent, hlast, hslash, hdot, hup, hlength, rfl⟩, hfree⟩ := h
  simp only [write, hpath, hparent, bind, Except.bind, hlast, hslash, Bool.false_eq_true,
    if_false, child_eq t parent hdot hup hlength]

/-- A path that leads to no directory, without a slash behind it, names a place. -/
theorem places_of_child {p : FilePath} {parent : Location} {n : Option FileNode}
    (hpath : FilePath.ofText path = .ok p) (hparent : t.parent p = .ok parent)
    (hlast : p.last = some name) (hslash : ¬p.endsInSlash = true)
    (hchild : t.child parent name = .ok (l, n)) (hn : n ≠ some .directory) : t.Places path l := by
  obtain ⟨hdot, hup, hlength, rfl, rfl⟩ := child_of_not_directory hchild hn
  rw [Bool.not_eq_true] at hslash
  exact ⟨⟨p, parent, name, hpath, hparent, hlast, hslash, hdot, hup, hlength, rfl⟩, hn⟩

/-- Nothing is written but at a place. -/
theorem places_of_write {content : String} (h : t.write path content = .ok t') :
    ∃ l, t.Places path l := by
  unfold write at h
  -- where one of the conditions of a place fails, so does a step
  obtain ⟨p, hpath, h⟩ := bind_eq_ok.1 h
  obtain ⟨parent, hparent, h⟩ := bind_eq_ok.1 h
  cases hlast : p.last with
  | none => simp [hlast] at h
  | some name =>
    simp only [hlast] at h
    split at h
    · cases h
    next hslash =>
      obtain ⟨⟨l, n⟩, hchild, h⟩ := bind_eq_ok.1 h
      have hn : n ≠ some .directory := by
        rintro rfl
        cases h
      exact ⟨l, places_of_child hpath hparent hlast hslash hchild hn⟩

/-- What stands at a place is what the path finds. -/
theorem Places.find_eq (h : t.Places path l) :
    t.find path =
      match t.node? l with
      | some (.file content) => .ok (l, .file content)
      | _ => .error .missing := by
  obtain ⟨⟨p, parent, name, hpath, hparent, hlast, hslash, hdot, hup, hlength, rfl⟩, hfree⟩ := h
  simp only [find, hpath, hparent, bind, Except.bind, hlast, hslash, Bool.false_eq_true,
    if_false, child_eq t parent hdot hup hlength]
  cases hnode : t.node? (parent ++ [name]) with
  | none => rfl
  | some n =>
    cases n with
    | file content => rfl
    | directory => exact absurd hnode hfree

/-- **A file that was put at a place is what the path finds.** -/
theorem Places.find_insert (h : t.Places path l) (content : String) :
    (t.insert l (.file content)).find path = .ok (l, .file content) := by
  rw [(h.insert_file content).find_eq, node?_insert, if_neg h.ne_nil, if_pos rfl]

/-- A file that is found stands at a place. -/
theorem places_of_find {content : String} (h : t.find path = .ok (l, .file content)) :
    t.Places path l := by
  unfold find at h
  obtain ⟨p, hpath, h⟩ := bind_eq_ok.1 h
  obtain ⟨parent, hparent, h⟩ := bind_eq_ok.1 h
  cases hlast : p.last with
  | none => simp [hlast] at h
  | some name =>
    simp only [hlast] at h
    obtain ⟨⟨m, _ | n⟩, hchild, h⟩ := bind_eq_ok.1 h
    · cases h
    · cases n with
      | directory => simp at h
      | file old =>
        simp only at h
        split at h
        · cases h
        next hslash =>
          obtain rfl : m = l := (Prod.mk.inj (Except.ok.inj h)).1
          exact places_of_child hpath hparent hlast hslash hchild (by simp)

end FileTree

/-! ## Saving -/

open FileTree (Places)

variable {home : Option String} {tree tree' : FileTree} {path p text : String} {v : Json}
  {l : Location}

/-- A file at a place is replaced. -/
theorem replaceFile_of_places (h : tree.Places p l) :
    replaceFile tree p text = .ok (tree.insert l (.file text)) := by
  rw [replaceFile, h.find_eq]
  cases hnode : tree.node? l with
  | none => simp [h.write_eq, mapError_eq_ok_iff]
  | some n =>
    cases n with
    | directory => exact absurd hnode h.free
    | file content =>
      have hremove : tree.remove p = .ok (tree.erase l) := by
        simp [FileTree.remove, h.find_eq, hnode, bind, Except.bind]
      simp [hremove, h.erase.write_eq, FileTree.insert_erase, bind, Except.bind, mapError_eq_ok_iff]

/-- Nothing is replaced but at a place. -/
theorem places_of_replaceFile (h : replaceFile tree p text = .ok tree') :
    ∃ l, tree.Places p l := by
  rw [replaceFile] at h
  split at h
  · cases h
  next l content hfind => exact ⟨l, FileTree.places_of_find hfind⟩
  next fault hfind => exact FileTree.places_of_write (mapError_eq_ok_iff.1 h)

/-- The path of a result, tilde and all, names a place for a file. -/
def Writable (home : Option String) (tree : FileTree) (path : String) : Prop :=
  ∃ p l, expandHome home path = .ok p ∧ tree.Places p l

/-- **Saving to a place succeeds**, and puts the tabbed text there. -/
theorem saveResult_of_places (hpath : expandHome home path = .ok p) (h : tree.Places p l) :
    saveResult home tree path v = .ok (p, tree.insert l (.file v.tabbedText)) := by
  simp [saveResult, hpath, replaceFile_of_places h, bind, Except.bind]

/-- Saving succeeds nowhere else. -/
theorem writable_of_saveResult (h : saveResult home tree path v = .ok (p, tree')) :
    Writable home tree path := by
  unfold saveResult at h
  obtain ⟨q, hpath, h⟩ := bind_eq_ok.1 h
  obtain ⟨t, hreplace, -⟩ := bind_eq_ok.1 h
  obtain ⟨l, hl⟩ := places_of_replaceFile hreplace
  exact ⟨q, l, hpath, hl⟩

end DbInventory
