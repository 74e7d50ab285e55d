import Sandbox.Proofs.Generate.Contents
import Sandbox.Proofs.Generate.Stages
import Sandbox.Proofs.Path.Shown

/-!
Where an instance finds its display socket.

The path of the socket is taken apart into a name and a directory, both are put into the
environment, and whoever joins them again gets to the path as it is shown
(`Spec.components_join_of_socketParts`). Which path it is decides nothing before that, so a
path is turned down for itself alone (`Generator.build_with_socket`).
-/

namespace Sandbox

open Sandbox.Path

/-- A path ends with a name, and the name is a text. -/
def Path.EndsWithText (p : Path) : Prop :=
  ∃ t : String, p.components.getLast? = some (.normal (Utf8.encode t.toList))

namespace Spec

variable {p dir : Path} {name : String} {s s' : Spec} {c : Config} {accounts : Accounts} {a : Application}

/-! ### The parts of the path -/

theorem isSocket_iff : IsSocket p ↔ p.isAbsolute = true ∧ p.EndsWithText := by
  constructor
  · rintro ⟨absolute, n, named, text⟩
    obtain ⟨last, there, isName⟩ := Option.bind_eq_some_iff.mp named
    obtain ⟨t, decoded⟩ := Option.isSome_iff_exists.mp text
    cases last with
    | normal m =>
        cases isName
        rw [Utf8.decode?_eq_some_iff] at decoded
        exact ⟨absolute, .ofList t, by rw [there, decoded, String.toList_ofList]⟩
    | root | current | parent => cases isName
  · rintro ⟨absolute, t, last⟩
    exact ⟨absolute, _, by rw [fileName?, last]; rfl, by rw [Utf8.decode?_encode]; rfl⟩

/-- A path can be taken apart if it begins at the root and ends with a name that is a text,
and else it is turned down for the first of the two that fails. -/
theorem socketParts_of_not_isSocket (none : ¬ IsSocket p) :
    socketParts p = .error (if p.isAbsolute then .namelessSocket p else .relativeSocket p) := by
  cases result : socketParts p with
  | ok parts => exact absurd (socketParts_eq_ok_iff.mp ⟨parts, result⟩) none
  | error e =>
      unfold socketParts at result
      split at result
      case isTrue relative => cases result; simpa using relative
      case isFalse absolute =>
      split at result
      case h_1 => cases result
      case h_2 => cases result; simpa using absolute

/-- The name stands behind the directory. -/
theorem components_of_socketParts (ok : socketParts p = .ok (name, dir)) :
    Ordinary (Utf8.encode name.toList) ∧ p.components = dir.components ++ [.normal (Utf8.encode name.toList)] := by
  obtain ⟨-, named, parent⟩ := socketParts_eq_ok ok
  obtain ⟨last, there, isName⟩ := Option.bind_eq_some_iff.mp named
  obtain ⟨c, components⟩ := components_of_parent? parent
  rw [components, List.getLast?_concat] at there
  cases there
  cases last with
  | normal n =>
      cases isName
      exact ⟨ordinary_of_mem_components (components ▸ List.mem_append_right _ List.mem_cons_self), components⟩
  | root | current | parent => cases isName

/-- Joined again, the parts lead where the path leads as it is shown. -/
theorem components_join_of_socketParts (ok : socketParts p = .ok (name, dir)) :
    ((ofString dir.display).join (ofString name)).components = p.shown.components := by
  obtain ⟨ordinary, components⟩ := components_of_socketParts ok
  calc ((ofString dir.display).join (ofString name)).components
      = dir.shown.components ++ [Component.normal (Utf8.encode name.toList)] := components_child dir.shown ordinary
    _ = p.shown.components := by
      rw [components_shown, components_shown, components, List.map_append, List.map_cons, Component.shown,
        shownName_encode]
      rfl

/-! ### What is settled -/

theorem variables_of_settle (ok : s.settle c accounts a = .ok s') :
    ∃ name dir, socketParts a.displaySocket = .ok (name, dir) ∧
      ∀ entry ∈ ownEntries c a name dir, s'.variableValue? entry.1 = some entry.2 := by
  obtain ⟨name, dir, parts, -, own⟩ := environment_of_settle ok
  refine ⟨name, dir, parts, fun entry mem => ?_⟩
  rw [variableValue?, own entry mem]
  exact congrArg some (entryValue_of_not_mem entry.2 (separator_not_mem_ownEntries entry mem))

theorem mounts_of_settle (ok : s.settle c accounts a = .ok s') :
    Section.Appends ((Generator.ownMounts c a).map Mount.toJson) (s.value? ["mounts"]) (s'.value? ["mounts"]) := by
  obtain ⟨s₁, name, dir, identity, -, rest⟩ := settle_eq_ok ok
  have gained := gains_of_run (run_append_of_ok identity rest) .mounts
  exact gained.appends (List.cons_ne_nil _ _)

/-- Who joins the directory and the name in the environment finds a socket, and it is
mounted from there and to there, before the other mounts that are settled with it. -/
structure FindsSocket (c : Config) (a : Application) (s s' : Spec) (socket : Path) : Prop where
  environment : ∃ name dir, s'.variableValue? "WAYLAND_DISPLAY" = some name ∧
    s'.variableValue? "XDG_RUNTIME_DIR" = some dir ∧
    ((ofString dir).join (ofString name)).components = socket.components
  mounts : ∃ source destination m m', Generator.ownMounts c a = [.bind source destination, m, m'] ∧
    Section.Appends ((Generator.ownMounts c a).map Mount.toJson) (s.value? ["mounts"]) (s'.value? ["mounts"]) ∧
    (ofString source).components = socket.components ∧ (ofString destination).components = socket.components

theorem findsSocket_of_settle (ok : s.settle c accounts a = .ok s') : FindsSocket c a s s' a.displaySocket.shown := by
  obtain ⟨name, dir, parts, own⟩ := variables_of_settle ok
  constructor
  · exact ⟨name, dir.display, own ("WAYLAND_DISPLAY", name) (by simp [ownEntries]),
      own ("XDG_RUNTIME_DIR", dir.display) (by simp [ownEntries]), components_join_of_socketParts parts⟩
  · exact ⟨_, _, _, _, rfl, mounts_of_settle ok, rfl, rfl⟩

/-! ### Another socket -/

theorem settle_with_socket (ok : s.settle c accounts a = .ok s') (p : Path) :
    (IsSocket p → ∃ t, s.settle c accounts { a with displaySocket := p } = .ok t) ∧
    (¬ IsSocket p → s.settle c accounts { a with displaySocket := p } =
      .error (if p.isAbsolute then .namelessSocket p else .relativeSocket p)) := by
  constructor
  · intro socket
    obtain ⟨process, lists, -⟩ := settle_ok_iff.mp ⟨s', ok⟩
    exact settle_ok_iff.mpr ⟨process, lists, socket⟩
  · intro none
    obtain ⟨s₁, _, _, identity, -, -⟩ := settle_eq_ok ok
    have identity : s.runAll (identitySteps c { a with displaySocket := p } (videoGid c accounts)) = .ok s₁ :=
      runAll_eq_ok_iff.mpr identity
    rw [settle, identity]
    have parts := socketParts_of_not_isSocket none
    change (socketParts p >>= _) = _
    rw [parts]
    rfl

end Spec

namespace Generator

open Spec

variable {g : Generator} {h : Host} {a : Application} {packages : List Package} {s : Spec}

/-- What is built before the socket matters does not depend on it. -/
theorem build_with_socket (ok : g.build h a packages = .ok s) :
    ∃ s₀ : Spec, s₀.settle g.config g.accounts a = .ok s ∧ ∀ p,
      g.build h { a with displaySocket := p } packages =
        Stage.overrides.guardConfig (s₀.settle g.config g.accounts { a with displaySocket := p }) := by
  obtain ⟨template, graphics, base, descriptor, assembled⟩ := build_eq_ok ok
  obtain ⟨s₁, s₂, contributed, hooked, settled⟩ := assemble_eq_ok assembled
  refine ⟨s₂, settled, fun p => ?_⟩
  have contributed := runAll_eq_ok_iff.mpr contributed
  have hooked := runAll_eq_ok_iff.mpr hooked
  rw [build, base, descriptor]
  -- The stages before succeed as they did.
  change (Stage.package.guardConfig (((graphics.grant h g.accounts).apply template).2.runAll
    (Package.contributionSteps (Package.readable h packages))) >>= _) = _
  rw [contributed]
  change (Stage.hooks.guardConfig (s₁.runAll (hookSteps g.config (g.config.specPath a.instanceId))) >>= _) = _
  rw [hooked]
  rfl

/-- The socket of an instance that is built is found where its path leads as it is shown,
so a path that is a text leads to it itself. Which other paths could take its place says
each path for itself: those that begin at the root and end with a name that is a text. -/
theorem display_socket_found (g : Generator) (h : Host) (a : Application) (packages : List Package) (s : Spec)
    (ok : g.build h a packages = .ok s) :
    (∃ s₀ : Spec, s₀.settle g.config g.accounts a = .ok s ∧ FindsSocket g.config a s₀ s a.displaySocket.shown ∧
      ∀ t, a.displaySocket = .ofString t → FindsSocket g.config a s₀ s a.displaySocket) ∧
    ∀ p : Path,
      ((∃ s', g.build h { a with displaySocket := p } packages = .ok s') ↔ p.isAbsolute = true ∧ p.EndsWithText) ∧
      (p.isAbsolute = false → g.build h { a with displaySocket := p } packages =
        .error ⟨.overrides, .config (.relativeSocket p)⟩) ∧
      (p.isAbsolute = true → ¬ p.EndsWithText → g.build h { a with displaySocket := p } packages =
        .error ⟨.overrides, .config (.namelessSocket p)⟩) := by
  obtain ⟨s₀, settled, others⟩ := build_with_socket ok
  refine ⟨⟨s₀, settled, findsSocket_of_settle settled, ?_⟩, fun p => ?_⟩
  · intro t text
    have found := findsSocket_of_settle settled
    rwa [text, shown_ofString, ← text] at found
  · obtain ⟨taken, refused⟩ := settle_with_socket settled p
    rw [others p, ← isSocket_iff]
    refine ⟨⟨?_, ?_⟩, ?_, ?_⟩
    · rintro ⟨s', built⟩
      by_contra none
      rw [refused none] at built
      cases built
    · intro socket
      obtain ⟨s', settled'⟩ := taken socket
      exact ⟨s', by rw [settled']; rfl⟩
    · intro relative
      have none : ¬ IsSocket p := fun socket => by rw [socket.absolute] at relative; cases relative
      rw [refused none, relative]
      rfl
    · intro absolute nameless
      have none : ¬ IsSocket p := fun socket => nameless (isSocket_iff.mp socket).2
      rw [refused none, absolute]
      rfl

/-- A path with more separators and dots than it needs, and one that ends with no name. -/
theorem display_socket_found_sample :
    let a := { Sample.application Sample.first with displaySocket := .ofString "//run/./user/../display//" }
    let nowhere : Path := .ofString "/run/.."
    (∃ s₀ s, Sample.generator.build (Sample.host []) a [] = .ok s ∧
      FindsSocket Sample.config a s₀ s a.displaySocket) ∧
    Sample.generator.build (Sample.host []) { a with displaySocket := nowhere } [] =
      .error ⟨.overrides, .config (.namelessSocket nowhere)⟩ := by
  intro a nowhere
  obtain ⟨s, ok⟩ : ∃ s, Sample.generator.build (Sample.host []) a [] = .ok s := Sample.exists_ok (by decide +kernel)
  obtain ⟨⟨s₀, -, -, found⟩, others⟩ := display_socket_found Sample.generator _ a [] s ok
  have nameless : ¬ nowhere.EndsWithText := by
    rintro ⟨t, last⟩
    have up : nowhere.components.getLast? = some .parent := by decide
    cases up.symm.trans last
  exact ⟨⟨s₀, s, ok, found _ rfl⟩, (others nowhere).2.2 (by decide) nameless⟩

/-- A path may begin at the root and end with a name, and still be turned down because the
name is no text. Of a directory that is no text only what is shown gets into the
environment, and that is another directory. -/
theorem display_socket_lost_in_text :
    let g := Sample.generator
    let h := Sample.host []
    let a (p : Path) := { Sample.application Sample.first with displaySocket := p }
    let nameless : Path := ⟨Utf8.encode "/run/".toList ++ [0xFF]⟩
    let hidden : Path := ⟨Utf8.encode "/run/".toList ++ 0xFF :: Utf8.encode "/display".toList⟩
    ((∃ s, g.build h (a (.ofString "/run/display")) [] = .ok s) ∧ nameless.isAbsolute = true ∧
      nameless.components.getLast? = some (.normal [0xFF]) ∧
      g.build h (a nameless) [] = .error ⟨.overrides, .config (.namelessSocket nameless)⟩) ∧
    ∃ s, g.build h (a hidden) [] = .ok s ∧ s.variableValue? "WAYLAND_DISPLAY" = some "display" ∧
      s.variableValue? "XDG_RUNTIME_DIR" = some "/run/\uFFFD" ∧
      ((ofString "/run/\uFFFD").join (ofString "display")).components ≠ hidden.components := by
  intro g h a nameless hidden
  refine ⟨⟨Sample.exists_ok (by decide +kernel), by decide, by decide, by decide +kernel⟩, ?_⟩
  obtain ⟨s, ok⟩ : ∃ s, g.build h (a hidden) [] = .ok s := Sample.exists_ok (by decide +kernel)
  obtain ⟨s₀, settled, -⟩ := build_with_socket ok
  obtain ⟨name, dir, parts, own⟩ := variables_of_settle settled
  have split : socketParts hidden = .ok ("display", ⟨Utf8.encode "/run/".toList ++ [0xFF]⟩) := by decide +kernel
  have shown : (Path.mk (Utf8.encode "/run/".toList ++ [0xFF])).display = "/run/\uFFFD" := by decide +kernel
  cases parts.symm.trans split
  exact ⟨s, ok, own ("WAYLAND_DISPLAY", "display") (by simp [ownEntries]),
    own ("XDG_RUNTIME_DIR", "/run/\uFFFD") (by rw [ownEntries, shown]; simp), by decide⟩

end Generator

end Sandbox
