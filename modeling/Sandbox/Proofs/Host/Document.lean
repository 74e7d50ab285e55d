import Sandbox.Proofs.Host.Agree
import Sandbox.Proofs.Json.Tree
import Sandbox.Proofs.Spec.File

/-!
What is found in files.

A document that is found in a file is in order and not too deep (`loadDocument_eq_ok`).
When a file is rewritten, every path leads where it did before, and device nodes are the
same (`toOption_device_rewrite`).
-/

namespace Sandbox.Host

variable {h : Host} {p : Path} {l : Location} {j : Json} {e e' : Entry}

theorem loadDocument_eq_ok (ok : h.loadDocument p = .ok j) : j.Sorted ∧ j.depth ≤ Json.depthLimit := by
  unfold loadDocument at ok
  split at ok
  case h_1 => cases ok
  case h_2 content _ =>
  split at ok
  case h_1 => cases ok
  case h_2 bytes _ =>
  cases parsed : Json.parse bytes with
  | error f =>
      rw [parsed] at ok
      cases ok
  | ok k =>
      rw [parsed] at ok
      cases ok
      exact Json.parse_eq_ok parsed

/-! ### Rewriting a file -/

/-- Paths lead where they did before an entry is replaced by one of the same shape. -/
theorem resolve_rewrite (found : h.tree.get? l = some e) (shape : e'.content.shape = e.content.shape) :
    resolve { h with tree := h.tree.insert l e' } p = h.resolve p := by
  refine resolve_congr rfl fun k _ => ?_
  by_cases same : k = l
  · rw [same, FileTree.shapeAt_insert_self, FileTree.shapeAt, found, shape]
    rfl
  · exact FileTree.shapeAt_insert_of_ne h.tree e' same

theorem toOption_device_rewrite (found : h.tree.get? l = some e) {bytes bytes' : List UInt8}
    (file : e.content = .file bytes) (file' : e'.content = .file bytes') :
    (device { h with tree := h.tree.insert l e' } p).toOption = (h.device p).toOption := by
  have shape : e'.content.shape = e.content.shape := by
    rw [file, file']
    rfl
  simp only [device, entryAt, resolve_rewrite found shape]
  cases h.resolve p with
  | error _ => rfl
  | ok m =>
      by_cases same : m = l
      · subst same
        simp [FileTree.get?_insert_self, found, file, file', Except.toOption]
      · simp only [FileTree.get?_insert_of_ne h.tree e' same]

end Sandbox.Host
