import Mathlib.Data.Prod.Basic
import Sandbox.Proofs.Generate.Sample
import Sandbox.Proofs.Host.Provided

/-!
Directories below a base, one by one.

A run over names below a base makes a directory for each and hands it over. What one step
does is said by `ensureOwnedDirectory_settles`. A run that succeeds provides all directories
on its way (`ensureChain_of_ok`). One that fails has provided those in front of the failure,
as if it had been asked for them alone, and nothing is there behind it
(`ensureChain_of_error`). Where all is provided, another run changes nothing
(`ensureChain_again`).

`createDirectories_outcome` puts this together with the base. The base need not lead to a
directory when it is the empty path, which stands for the working directory in front of
other names but is nothing that the system takes (`createDirectories_below_empty`).
-/

namespace Sandbox

open Host Sandbox.Path

variable {h h' : Host} {dir base p : Path} {n : Name} {ms ns : List Name} {owner : Option Owner}

/-- A step makes or finds a directory, hands it over, and changes nothing else. -/
theorem ensureOwnedDirectory_settles (ok : ensureOwnedDirectory h p owner = .ok h') (coherent : h.Coherent)
    (allowed : h.privileges.changeOwner = true) (nameable : Nameable owner) :
    Settles owner h h' ∧ h'.Provides owner p := by
  unfold ensureOwnedDirectory at ok
  split at ok
  case h_1 => cases ok
  case h_2 h₁ made =>
  have touches : h.Touches (fun _ => True) (fun _ => False) h₁ := touches_of_ensureDirectory made fun _ _ => trivial
  have is := isDirectory_of_ensureDirectory made
  cases owner with
  | none =>
      cases ok
      obtain ⟨l, resolved, directory⟩ := isDirectory_iff.mp is
      exact ⟨.of_touches touches, l, resolved, directory, nofun⟩
  | some o =>
      cases ok
      have only := touches.onlyDirectories
      have allowed₁ : h₁.privileges.changeOwner = true := by rw [only.setting.privileges, allowed]
      obtain ⟨settles, provides⟩ :=
        tryChangeOwner_settles is (coherent.of_onlyDirectories only) allowed₁ nameable
      exact ⟨(Settles.of_touches touches).trans settles, provides⟩

/-! ### Runs -/

/-- A run that succeeds provides a directory for each of its names. -/
theorem ensureChain_of_ok (ok : ensureChain owner h dir ns = (.ok (), h')) (coherent : h.Coherent)
    (allowed : h.privileges.changeOwner = true) (nameable : Nameable owner) :
    Settles owner h h' ∧ ∀ ms, ms ≠ [] → ms <+: ns → h'.Provides owner (dir.descend ms) := by
  induction ns generalizing h dir with
  | nil =>
      cases ok
      refine ⟨.refl owner _, fun ms some taken => ?_⟩
      exact absurd (List.prefix_nil.mp taken) some
  | cons n ns ih =>
      rw [ensureChain] at ok
      split at ok
      case h_1 => cases ok
      case h_2 h₁ step =>
      obtain ⟨first, here⟩ := ensureOwnedDirectory_settles step coherent allowed nameable
      have coherent₁ := coherent.of_onlyDirectories first.only
      have allowed₁ : h₁.privileges.changeOwner = true := by rw [first.only.setting.privileges, allowed]
      obtain ⟨rest, below⟩ := ih ok coherent₁ allowed₁
      refine ⟨first.trans rest, ?_⟩
      intro ms some taken
      rcases List.prefix_cons_iff.mp taken with rfl | ⟨ms, rfl, further⟩
      · exact absurd rfl some
      · cases ms with
        | nil => exact rest.provides coherent₁ here
        | cons m ms => exact below (m :: ms) (List.cons_ne_nil m ms) further

/-- A run that fails stops at one of its names, where no directory is then. It has done
what a run up to there does. -/
theorem ensureChain_of_error {e : Error} (failed : ensureChain owner h dir ns = (.error e, h')) :
    ∃ ms n rest cause, ns = ms ++ n :: rest ∧ e = .io (dir.descend (ms ++ [n])) cause ∧
      ensureChain owner h dir ms = (.ok (), h') ∧ h'.isDirectory (dir.descend (ms ++ [n])) = false := by
  induction ns generalizing h dir with
  | nil => cases failed
  | cons n ns ih =>
      rw [ensureChain] at failed
      split at failed
      case h_1 e' step =>
        cases failed
        unfold ensureOwnedDirectory at step
        split at step
        case h_1 cause refused =>
          cases step
          refine ⟨[], n, ns, cause, rfl, rfl, rfl, ?_⟩
          -- What is there already is found, so it would not have failed.
          rw [Bool.eq_false_iff]
          intro is
          rw [List.nil_append, descend_cons, descend_nil] at is
          rw [ensureDirectory_of_isDirectory is] at refused
          cases refused
        case h_2 h₁ _ => cases owner <;> cases step
      case h_2 h₁ step =>
        obtain ⟨ms, m, rest, cause, rfl, rfl, before, none⟩ := ih failed
        refine ⟨n :: ms, m, rest, cause, rfl, rfl, ?_, none⟩
        rw [ensureChain]
        simp only [step]
        exact before

/-- What is provided already is found and handed over to whom it belongs to. -/
theorem ensureOwnedDirectory_again (provides : h.Provides owner p) (allowed : h.privileges.changeOwner = true)
    (nameable : Nameable owner) :
    ∃ h', ensureOwnedDirectory h p owner = .ok h' ∧ AgreeOn (fun _ => True) h h' := by
  rw [ensureOwnedDirectory, ensureDirectory_of_isDirectory provides.isDirectory]
  cases owner with
  | none => exact ⟨h, rfl, .refl _ h⟩
  | some o =>
      obtain ⟨user, group⟩ := nameable o rfl
      obtain ⟨l, resolved, -, owned⟩ := provides
      obtain ⟨e, found, belongs⟩ := Option.map_eq_some_iff.mp (owned o rfl)
      refine ⟨_, rfl, ?_, ?_⟩
      · intro k _
        rw [tryChangeOwner_eq resolved, get?_handOverAt found allowed, handOver_eq user group]
        split
        · next here => rw [here, found, ← belongs]
        · rfl
      · exact (tryChangeOwner_same h p o.uid o.gid).1

/-- Where all directories of a run are provided, it succeeds and changes nothing. -/
theorem ensureChain_again (provides : ∀ ms, ms ≠ [] → ms <+: ns → h.Provides owner (dir.descend ms))
    (allowed : h.privileges.changeOwner = true) (nameable : Nameable owner) :
    ∃ h', ensureChain owner h dir ns = (.ok (), h') ∧ AgreeOn (fun _ => True) h h' := by
  induction ns generalizing h dir with
  | nil => exact ⟨h, rfl, .refl _ h⟩
  | cons n ns ih =>
      have here : h.Provides owner (dir.child n) :=
        provides [n] (List.cons_ne_nil n []) (List.prefix_append [n] ns)
      obtain ⟨h₁, step, same⟩ := ensureOwnedDirectory_again here allowed nameable
      have below : ∀ ms, ms ≠ [] → ms <+: ns → h₁.Provides owner ((dir.child n).descend ms) := by
        intro ms some taken
        exact (provides (n :: ms) (List.cons_ne_nil n ms) (List.prefix_cons_inj n |>.mpr taken)).of_agreeOn same
      obtain ⟨h', rest, same'⟩ := ih below (by rw [same.setting.privileges, allowed])
      refine ⟨h', ?_, same.trans same'⟩
      rw [ensureChain]
      simp only [step]
      exact rest

/-! ### The base and what is below it -/

/-- What is there once the directories along names below a base are made for a user and a
group. If neither number is zero all of them belong to these two, and if either is zero
nothing that was there has changed. -/
structure Completes (uid gid : UInt32) (base : Path) (ns : List Name) (h h' : Host) : Prop where
  reached : h'.isDirectory base = true ∨ base.bytes = [] ∨
    base.components = [.root] ∧ maxPathLength < base.bytes.length
  directories : ∀ ms, ms ≠ [] → ms <+: ns → h'.isDirectory (base.descend ms) = true
  handed : uid ≠ 0 → gid ≠ 0 → ∀ ms, ms ≠ [] → ms <+: ns → h'.Provides (some ⟨uid, gid⟩) (base.descend ms)
  kept : uid = 0 ∨ gid = 0 → ∀ k e, h.tree.get? k = some e → h'.tree.get? k = some e

theorem createDirectories_eq (below : p.components = base.components ++ ns.map .normal) (h : Host)
    (uid gid : UInt32) :
    createDirectories h base p uid gid =
      match h.makeDirectories base with
      | (.error e, h) => (.error (.io base e), h)
      | (.ok (), h) => ensureChain (newOwner uid gid) h base ns := by
  have names := segmentsBelow_eq_ok_iff.mpr below
  unfold createDirectories
  generalize segmentsBelow base p = found at names ⊢
  subst names
  rfl

theorem newOwner_of_ne_zero {uid gid : UInt32} (user : uid ≠ 0) (group : gid ≠ 0) :
    newOwner uid gid = some ⟨uid, gid⟩ :=
  if_pos ⟨user, group⟩

theorem newOwner_of_zero {uid gid : UInt32} (zero : uid = 0 ∨ gid = 0) : newOwner uid gid = none := by
  rw [newOwner, if_neg]
  rintro ⟨user, group⟩
  exact zero.elim user group

theorem nameable_newOwner {uid gid : UInt32} (user : uid ≠ unchangedId) (group : gid ≠ unchangedId) :
    Nameable (newOwner uid gid) := by
  intro o named
  unfold newOwner at named
  split at named
  · cases named
    exact ⟨user, group⟩
  · cases named

/-- A base that is made is there, if it is anything that the system takes. -/
theorem base_of_makeDirectories (ok : h.makeDirectories base = (.ok (), h'))
    (root : h.tree.isDirectory [] = true) :
    h'.isDirectory base = true ∨ base.bytes = [] ∨
      base.components = [.root] ∧ maxPathLength < base.bytes.length := by
  cases parent : base.parent? with
  | some q => exact .inl (isDirectory_of_makeDirectories parent ok)
  | none =>
      rw [makeDirectories_of_parent? parent h] at ok
      cases ok
      by_cases empty : base.bytes = []
      · exact .inr (.inl empty)
      have isRoot := IsRoot.of_parent? parent empty
      by_cases long : maxPathLength < base.bytes.length
      · exact .inr (.inr ⟨isRoot.components_eq, long⟩)
      · exact .inl (isDirectory_of_isRoot isRoot (Nat.not_lt.mp long) root)

section

variable {uid gid : UInt32} (below : p.components = base.components ++ ns.map .normal)
  (allowed : h.privileges.changeOwner = true) (user : uid ≠ unchangedId) (group : gid ≠ unchangedId)
  (coherent : h.Coherent)

include below allowed user group coherent

theorem createDirectories_of_ok (ok : createDirectories h base p uid gid = (.ok (), h')) :
    ∃ h₁, h.makeDirectories base = (.ok (), h₁) ∧ h.Touches (h.OnWay base) (fun _ => False) h₁ ∧
      Settles (newOwner uid gid) h₁ h' ∧
        ∀ ms, ms ≠ [] → ms <+: ns → h'.Provides (newOwner uid gid) (base.descend ms) := by
  rw [createDirectories_eq below] at ok
  split at ok
  case h_1 => cases ok
  case h_2 h₁ made =>
  have touches := makeDirectories_touches (O := fun _ => False) h base
  rw [made] at touches
  have only := touches.onlyDirectories
  have allowed₁ : h₁.privileges.changeOwner = true := by rw [only.setting.privileges, allowed]
  exact ⟨h₁, made, touches,
    ensureChain_of_ok ok (coherent.of_onlyDirectories only) allowed₁ (nameable_newOwner user group)⟩

theorem createDirectories_completes (ok : createDirectories h base p uid gid = (.ok (), h')) :
    Completes uid gid base ns h h' := by
  obtain ⟨h₁, made, touches, settles, provides⟩ := createDirectories_of_ok below allowed user group coherent ok
  refine ⟨?_, fun ms some taken => (provides ms some taken).isDirectory, ?_, ?_⟩
  · exact (base_of_makeDirectories made coherent.root).imp_left settles.only.isDirectory
  · intro uid gid ms some taken
    rw [← newOwner_of_ne_zero uid gid]
    exact provides ms some taken
  · intro zero k e found
    rw [newOwner_of_zero zero] at settles
    exact settles.kept k e (touches.tree.get?_of_unowned found)

/-- Making directories once more succeeds and changes nothing. -/
theorem createDirectories_again (ok : createDirectories h base p uid gid = (.ok (), h')) :
    ∃ h'', createDirectories h' base p uid gid = (.ok (), h'') ∧ AgreeOn (fun _ => True) h' h'' := by
  obtain ⟨h₁, made, touches, settles, provides⟩ := createDirectories_of_ok below allowed user group coherent ok
  have allowed' : h'.privileges.changeOwner = true := by
    rw [settles.only.setting.privileges, touches.setting.privileges, allowed]
  have found : h'.makeDirectories base = (.ok (), h') := by
    cases parent : base.parent? with
    | none => exact makeDirectories_of_parent? parent h'
    | some q =>
        exact makeDirectories_of_isDirectory (settles.only.isDirectory (isDirectory_of_makeDirectories parent made))
  rw [createDirectories_eq below, found]
  exact ensureChain_again provides allowed' (nameable_newOwner user group)

end

/-- Where making directories fails at a name below the base, all is as after a run to the
name before, which succeeds, and nothing is there behind it. -/
theorem createDirectories_of_error {uid gid : UInt32} {e : Error}
    (below : p.components = base.components ++ ns.map .normal)
    (failed : createDirectories h base p uid gid = (.error e, h')) :
    ∃ q cause, e = .io q cause ∧
      (q = base ∧ h.Touches (h.OnWay base) (fun _ => False) h' ∨
        ∃ ms n rest, ns = ms ++ n :: rest ∧ q = base.descend (ms ++ [n]) ∧
          createDirectories h base (base.descend ms) uid gid = (.ok (), h') ∧ h'.isDirectory q = false ∧
          ∀ ls, ls ≠ [] → ls <+: rest → ∀ l, h'.resolve (q.descend ls) ≠ .ok l) := by
  have ordinary : ∀ n ∈ ns, Ordinary n := ordinary_of_segmentsBelow (segmentsBelow_eq_ok_iff.mpr below)
  rw [createDirectories_eq below] at failed
  have touches := makeDirectories_touches (O := fun _ => False) h base
  split at failed
  case h_1 cause h₁ made =>
    cases failed
    rw [made] at touches
    exact ⟨base, cause, rfl, .inl ⟨rfl, touches⟩⟩
  case h_2 h₁ made =>
    obtain ⟨ms, n, rest, cause, rfl, rfl, before, none⟩ := ensureChain_of_error failed
    have first : ∀ m ∈ ms, Ordinary m := fun m mem => ordinary m (List.mem_append_left _ mem)
    have here : Ordinary n := ordinary n (by simp)
    have later : ∀ m ∈ rest, Ordinary m := fun m mem => ordinary m (by simp [mem])
    refine ⟨_, cause, rfl, .inr ⟨ms, n, rest, rfl, rfl, ?_, none, ?_⟩⟩
    · rw [createDirectories_eq (components_descend first), made]
      exact before
    · intro ls some taken l resolved
      have nonempty : (base.descend (ms ++ [n])).bytes ≠ [] := by
        rw [descend_append]
        exact bytes_child_ne_nil _ here
      have is := isDirectory_of_resolve_descend (fun m mem => later m (taken.subset mem)) nonempty some resolved
      rw [none] at is
      cases is

/-- Making directories below a base is refused for a wrong path, with nothing changed,
exactly when the path does not go on from the base along names. If it succeeds, all is
there, and doing it once more changes nothing. If it fails, it fails at the base or at
some name, where no directory is then; what is in front of it is there, as after a run up
to there, and nothing behind it. -/
theorem createDirectories_outcome (h : Host) (base p : Path) (uid gid : UInt32)
    (allowed : h.privileges.changeOwner = true) (user : uid ≠ unchangedId) (group : gid ≠ unchangedId)
    (coherent : h.Coherent) :
    ((∃ e, (createDirectories h base p uid gid).1 = .error (.config e)) ↔
        ¬ ∃ ns : List Name, p.components = base.components ++ ns.map .normal) ∧
      (∀ e h', createDirectories h base p uid gid = (.error (.config e), h') → h' = h) ∧
      ∀ ns, p.components = base.components ++ ns.map .normal →
        (∀ h', createDirectories h base p uid gid = (.ok (), h') →
          Completes uid gid base ns h h' ∧
            ∃ h'', createDirectories h' base p uid gid = (.ok (), h'') ∧ AgreeOn (fun _ => True) h' h'') ∧
        ∀ e h', createDirectories h base p uid gid = (.error e, h') →
          ∃ q cause, e = .io q cause ∧
            (q = base ∧ h.Touches (h.OnWay base) (fun _ => False) h' ∨
              ∃ ms n rest, ns = ms ++ n :: rest ∧ q = base.descend (ms ++ [n]) ∧
                createDirectories h base (base.descend ms) uid gid = (.ok (), h') ∧
                Completes uid gid base ms h h' ∧ h'.isDirectory q = false ∧
                ∀ ls, ls ≠ [] → ls <+: rest → ∀ l, h'.resolve (q.descend ls) ≠ .ok l) := by
  have refused (apart : ¬ ∃ ns : List Name, p.components = base.components ++ ns.map .normal) :
      ∃ e, createDirectories h base p uid gid = (.error (.config e), h) := by
    cases names : segmentsBelow base p with
    | ok ns => exact absurd ⟨ns, segmentsBelow_eq_ok_iff.mp names⟩ apart
    | error e => exact ⟨e, by rw [createDirectories, names]⟩
  refine ⟨⟨?_, ?_⟩, ?_, ?_⟩
  · rintro ⟨e, failed⟩ ⟨ns, below⟩
    obtain ⟨q, cause, other, -⟩ := createDirectories_of_error below (Prod.ext failed rfl)
    cases other
  · intro apart
    obtain ⟨e, failed⟩ := refused apart
    exact ⟨e, congrArg Prod.fst failed⟩
  · intro e h' failed
    by_cases below : ∃ ns : List Name, p.components = base.components ++ ns.map .normal
    · obtain ⟨ns, below⟩ := below
      obtain ⟨q, cause, other, -⟩ := createDirectories_of_error below failed
      cases other
    · obtain ⟨e', failed'⟩ := refused below
      exact congrArg Prod.snd (failed.symm.trans failed')
  · intro ns below
    constructor
    · intro h' ok
      exact ⟨createDirectories_completes below allowed user group coherent ok,
        createDirectories_again below allowed user group coherent ok⟩
    · intro e h' failed
      obtain ⟨q, cause, same, stops⟩ := createDirectories_of_error below failed
      refine ⟨q, cause, same, stops.imp_right ?_⟩
      rintro ⟨ms, n, rest, rfl, there, before, none, behind⟩
      have first : ∀ m ∈ ms, Ordinary m := by
        intro m mem
        exact ordinary_of_segmentsBelow (segmentsBelow_eq_ok_iff.mpr below) m (List.mem_append_left _ mem)
      exact ⟨ms, n, rest, rfl, there, before,
        createDirectories_completes (components_descend first) allowed user group coherent before, none, behind⟩

/-- Two directories are made below one that is there, and belong to whom they are made for. -/
theorem createDirectories_outcome_sample :
    let h := Sample.host []
    let base : Path := .ofString "/instances"
    let p : Path := .ofString "/instances/./a//b/"
    (createDirectories h base p 1000 1000).1 = .ok () ∧
      (createDirectories h base p 1000 1000).2.Provides (some ⟨1000, 1000⟩) (.ofString "/instances/a") ∧
      (createDirectories h base p 1000 1000).2.Provides (some ⟨1000, 1000⟩) (.ofString "/instances/a/b") := by
  intro h base p
  have ok : (createDirectories h base p 1000 1000).1 = .ok () := by decide +kernel
  have below : p.components = base.components ++ [Sample.name "a", Sample.name "b"].map .normal := by
    decide +kernel
  have coherent : h.Coherent := ⟨by decide +kernel, nofun⟩
  have done : createDirectories h base p 1000 1000 = (.ok (), (createDirectories h base p 1000 1000).2) :=
    Prod.fst_eq_iff.mp ok
  obtain ⟨-, -, outcome⟩ :=
    createDirectories_outcome h base p 1000 1000 rfl (by decide) (by decide) coherent
  obtain ⟨completes, -⟩ := (outcome _ below).1 _ done
  have first : base.descend [Sample.name "a"] = .ofString "/instances/a" := by decide +kernel
  have second : base.descend [Sample.name "a", Sample.name "b"] = .ofString "/instances/a/b" := by decide +kernel
  refine ⟨ok, ?_, ?_⟩
  · rw [← first]
    exact completes.handed (by decide) (by decide) _ (List.cons_ne_nil _ _) (List.prefix_append _ _)
  · rw [← second]
    exact completes.handed (by decide) (by decide) _ (List.cons_ne_nil _ _) (List.prefix_refl _)

/-- The empty path as a base is passed over, so it may lead nowhere in the end. -/
theorem createDirectories_below_empty :
    createDirectories (Sample.host []) .empty .empty 1000 1000 = (.ok (), Sample.host []) ∧
      (Sample.host []).resolve .empty = .error (.system .noEntry) := by
  decide +kernel

end Sandbox
