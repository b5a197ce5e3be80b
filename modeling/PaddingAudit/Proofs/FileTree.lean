import PaddingAudit.Logging
import PaddingAudit.Proofs.Entries
import PaddingAudit.Reader

/-!
# What logging leaves alone

A run changes the file system in one way only: it makes the directories of the log, opens the log
file and writes into it. Nothing is moved or taken away by this, and no image is changed. So every
path that led to a file before leads to the same image afterwards.
-/

namespace PaddingAudit

namespace FileTree

variable {t t' t'' : FileTree} {place other : Place} {node : FileNode} {p : Path}

theorem node?_set (h : place ≠ []) :
    (t.set place node).node? other = if other = place then some node else t.node? other := by
  cases other with
  | nil => simp [node?, h.symm]
  | cons name names => exact lookup_cons_filter_ne t.nodes place (name :: names) node

/-- Whatever is in the first file tree is in the second one too, at the same place. The text of a
file may have changed, as long as it holds the same image or is refused for the same cause. -/
structure Keeps (t t' : FileTree) : Prop where
  workingDirectory_eq : t'.workingDirectory = t.workingDirectory
  directory : ∀ place, t.node? place = some .directory → t'.node? place = some .directory
  file : ∀ place content, t.node? place = some (.file content) →
    ∃ content', t'.node? place = some (.file content') ∧
      Reader.imageIn content' = Reader.imageIn content

namespace Keeps

theorem refl (t : FileTree) : Keeps t t :=
  ⟨rfl, fun _ => id, fun _ content h => ⟨content, h, rfl⟩⟩

theorem trans (h : Keeps t t') (h' : Keeps t' t'') : Keeps t t'' where
  workingDirectory_eq := h'.workingDirectory_eq.trans h.workingDirectory_eq
  directory place hd := h'.directory place (h.directory place hd)
  file place content hc := by
    obtain ⟨content', hc', himage⟩ := h.file place content hc
    obtain ⟨content'', hc'', himage'⟩ := h'.file place content' hc'
    exact ⟨content'', hc'', himage'.trans himage⟩

theorem append (t : FileTree) (place : Place) (text : String) : Keeps t (t.append place text) := by
  unfold FileTree.append
  split
  · rename_i content hcontent
    have hplace : place ≠ [] := by
      rintro rfl
      cases hcontent
    constructor
    · rfl
    · intro other hd
      have hne : other ≠ place := by
        rintro rfl
        rw [hd] at hcontent
        cases hcontent
      rw [node?_set hplace, if_neg hne, hd]
    · intro other content' hc
      rw [node?_set hplace]
      split
      · rename_i heq
        -- Text that is no image is none with more text at its end.
        rw [heq, hcontent] at hc
        cases hc
        exact ⟨_, rfl, rfl⟩
      · exact ⟨content', hc, rfl⟩
  · exact .refl t

end Keeps

/-! ### Following paths -/

theorem isDirectoryAt_iff : t.isDirectoryAt place = true ↔ t.node? place = some .directory := by
  unfold isDirectoryAt
  split <;> simp_all

namespace Keeps

theorem isSome (h : Keeps t t') (hnode : (t.node? place).isSome) : (t'.node? place).isSome := by
  cases hplace : t.node? place with
  | none => simp [hplace] at hnode
  | some node =>
    cases node with
    | directory => rw [h.directory place hplace]; rfl
    | file content =>
      obtain ⟨content', hcontent, -⟩ := h.file place content hplace
      rw [hcontent]
      rfl

theorem enter (h : Keeps t t') {part : String} (hpart : t.enter place part = .ok other) :
    t'.enter place part = .ok other := by
  unfold FileTree.enter at hpart ⊢
  split at hpart
  · cases hpart
  rename_i hplace
  have hdirectory : t'.isDirectoryAt place = true := by
    rw [isDirectoryAt_iff]
    exact h.directory place (isDirectoryAt_iff.1 (by simpa using hplace))
  rw [if_neg (by simp [hdirectory])]
  split at hpart
  · rename_i hparent
    rw [if_pos hparent]
    exact hpart
  rename_i hparent
  rw [if_neg hparent]
  split at hpart
  · cases hpart
  rename_i hshort
  rw [if_neg hshort]
  split at hpart
  · rename_i hnode
    rw [if_pos (h.isSome hnode)]
    exact hpart
  · cases hpart

theorem follow (h : Keeps t t') {parts : List String} (hparts : t.follow place parts = .ok other) :
    t'.follow place parts = .ok other := by
  induction parts generalizing place with
  | nil => exact hparts
  | cons part parts ih =>
    unfold FileTree.follow at hparts ⊢
    rw [List.foldlM_cons] at hparts ⊢
    cases hpart : t.enter place part with
    | error dead =>
      rw [hpart] at hparts
      cases hparts
    | ok next =>
      rw [hpart] at hparts
      rw [h.enter hpart]
      exact ih hparts

theorem locate (h : Keeps t t') (hp : t.locate p = .ok place) : t'.locate p = .ok place := by
  have hstart : t'.start p = t.start p := by
    unfold start
    rw [h.workingDirectory_eq]
  unfold FileTree.locate at hp ⊢
  split at hp
  · cases hp
  split at hp
  · cases hp
  · rename_i hnull hlong
    rw [if_neg hnull, if_neg hlong, hstart]
    exact h.follow hp

end Keeps

end FileTree

/-! ### Logging -/

namespace Logging

open FileTree

theorem keeps_feed (m : Moment) (e : Event) (out : Output) (sink : Sink) :
    Keeps out.files (feed m e out sink).files := by
  cases sink with
  | console threshold =>
    unfold feed
    dsimp only
    split <;> exact .refl _
  | file place => exact .append _ _ _

theorem keeps_emit (l : Logging) (e : Event) (out : Output) :
    Keeps out.files (l.emit e out).files := by
  have hsinks : ∀ sinks : List Sink, ∀ out : Output,
      Keeps out.files (sinks.foldl (feed l.moment e) out).files := by
    intro sinks
    induction sinks with
    | nil => exact fun out => .refl _
    | cons sink sinks ih => exact fun out => (keeps_feed l.moment e out sink).trans (ih _)
  unfold emit
  split
  · exact .refl _
  split
  · split <;> exact .refl _
  · exact hsinks l.sinks out

theorem keeps_emitAll (l : Logging) (events : List Event) (out : Output) :
    Keeps out.files (l.emitAll events out).files := by
  induction events generalizing out with
  | nil => exact .refl _
  | cons e events ih => exact (keeps_emit l e out).trans (ih _)

end Logging

end PaddingAudit
