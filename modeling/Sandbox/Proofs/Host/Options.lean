import Sandbox.Overlay
import Sandbox.Proofs.Generate.Sample
import Sandbox.Proofs.Package.Manifest
import Sandbox.Proofs.Path.Child

/-!
Options of a mount, read back.

Options are split at their commas, and the layers among them at colons (`readOptions`).
No such character in a path is marked. So a layout is read back exactly when it has a
layer, its paths are texts and none of them holds a character that divides options
(`Layout.readOptions_options_iff`). The packages of a manifest can have other paths, and
then two lists of layers may look the same (`Layout.options_of_dividing_paths`).
-/

namespace Sandbox

open Sandbox.Path

/-! ### Texts without some characters -/

namespace Path

variable {p : Path} {cs : List Char} {s : String}

/-- The path is a text in which some characters do not occur. -/
def Lacks (p : Path) (cs : List Char) : Prop :=
  ∃ t : String, p = ofString t ∧ ∀ c ∈ cs, c ∉ t.toList

theorem lacks_iff : p.Lacks cs ↔ ofString p.display = p ∧ ∀ c ∈ cs, c ∉ p.display.toList := by
  constructor
  · rintro ⟨t, rfl, lacks⟩
    rw [display_ofString]
    exact ⟨rfl, lacks⟩
  · rintro ⟨text, lacks⟩
    exact ⟨p.display, text.symm, lacks⟩

/-- What is put behind a path comes behind its text, with a slash or without one. -/
theorem Lacks.childText (lacks : p.Lacks cs) (segment : isSegment s = true) (slash : '/' ∉ cs)
    (also : ∀ c ∈ cs, c ∉ s.toList) : (p.childText s).Lacks cs := by
  obtain ⟨t, rfl, without⟩ := lacks
  have bytes := bytes_child (ofString t) (InstanceId.ordinary_name ⟨s, segment⟩)
  have child : ((ofString t).childText s).bytes = (ofString t).stem ++ Utf8.encode s.toList := bytes
  unfold stem at child
  split at child
  · refine ⟨t ++ s, congrArg Path.mk ?_, ?_⟩
    · rw [String.toList_append, Utf8.encode_append]
      exact child
    · intro c mem
      simp [String.toList_append, without c mem, also c mem]
  · refine ⟨t ++ "/" ++ s, congrArg Path.mk ?_, ?_⟩
    · rw [String.toList_append, String.toList_append, Utf8.encode_append, Utf8.encode_append]
      exact child
    · intro c mem
      have other : c ≠ '/' := fun same => slash (same ▸ mem)
      simp [String.toList_append, without c mem, also c mem, other]

end Path

/-! ### Reading options -/

theorem intercalate_eq_join (c : Char) (ss : List (List Char)) : [c].intercalate ss = Separated.join c ss := by
  induction ss with
  | nil => rfl
  | cons s ss ih =>
      cases ss with
      | nil => simp [Separated.join]
      | cons s' ss => rw [List.intercalate_cons_cons, ih]; simp [Separated.join]

namespace Layout

variable {l : Layout}

/-- The layers as they stand in options. -/
def lowerText (l : Layout) : List Char :=
  Separated.join ':' (l.lowers.map fun p => p.display.toList)

/-- What stands between the commas of options. -/
def optionParts (l : Layout) : List (List Char) :=
  ["lowerdir=".toList ++ l.lowerText, "upperdir=".toList ++ l.upper.display.toList,
    "workdir=".toList ++ l.work.display.toList]

theorem toList_options (l : Layout) : l.options.toList = Separated.join ',' l.optionParts := by
  have lower : (":".intercalate (l.lowers.map Path.display)).toList = l.lowerText := by
    rw [String.toList_intercalate, List.map_map]
    exact intercalate_eq_join ':' _
  simp only [options, String.toList_append, lower, optionParts, Separated.join]
  simp

theorem readOptions_of_split (parts : Separated.split ',' l.options.toList = l.optionParts) :
    readOptions l.options =
      some ((Separated.split ':' l.lowerText).map fun cs => ofString (.ofList cs), ofString l.upper.display,
        ofString l.work.display) := by
  have strip (key rest : List Char) : stripPrefix? key (key ++ rest) = some rest := stripPrefix?_eq_some_iff.mpr rfl
  rw [readOptions, parts, optionParts]
  simp only [strip, Option.bind_eq_bind, Option.bind_some, String.ofList_toList]
  rfl

/-- Splitting finds the layers again if none of them holds a colon. -/
theorem split_lowerText (nonempty : l.lowers ≠ []) (colons : ∀ p ∈ l.lowers, ':' ∉ p.display.toList) :
    Separated.split ':' l.lowerText = l.lowers.map fun p => p.display.toList := by
  obtain ⟨first, rest, lowers⟩ := List.exists_cons_of_ne_nil nonempty
  have plain : ∀ cs ∈ l.lowers.map (fun p => p.display.toList), ':' ∉ cs := List.forall_mem_map.mpr colons
  rw [lowerText]
  rw [lowers] at plain ⊢
  exact Separated.split_join plain

/-- Nothing in the paths of a layout divides options, and there is a layer. -/
structure Undivided (l : Layout) : Prop where
  nonempty : l.lowers ≠ []
  lowers : ∀ p ∈ l.lowers, p.Lacks [',', ':']
  upper : l.upper.Lacks [',']
  work : l.work.Lacks [',']

theorem Undivided.readOptions_eq (h : l.Undivided) :
    readOptions l.options = some (l.lowers, l.upper, l.work) := by
  obtain ⟨nonempty, lowers, upper, work⟩ := h
  simp only [lacks_iff, List.forall_mem_cons, List.not_mem_nil, false_implies, implies_true, and_true]
    at lowers upper work
  have layers := split_lowerText nonempty fun p mem => (lowers p mem).2.2
  have lowerComma : ',' ∉ l.lowerText := by
    intro held
    have found : ',' = ':' ∨ ∃ cs ∈ Separated.split ':' l.lowerText, ',' ∈ cs := Separated.eq_or_mem_of_mem held
    rcases found with same | ⟨cs, mem, inside⟩
    · cases same
    · rw [layers] at mem
      obtain ⟨p, there, rfl⟩ := List.mem_map.mp mem
      exact (lowers p there).2.1 inside
  have parts : Separated.split ',' l.options.toList = l.optionParts := by
    rw [toList_options]
    refine Separated.split_join ?_
    simp only [List.forall_mem_cons, List.mem_append, not_or, List.not_mem_nil, false_implies, implies_true, and_true]
    exact ⟨⟨by decide, lowerComma⟩, ⟨by decide, upper.2⟩, ⟨by decide, work.2⟩⟩
  have texts : l.lowers.map ((fun cs => ofString (.ofList cs)) ∘ fun p => p.display.toList) = l.lowers := by
    refine (List.map_congr_left fun p mem => ?_).trans (List.map_id _)
    simpa using (lowers p mem).1
  rw [readOptions_of_split parts, layers, List.map_map, texts, upper.1, work.1]

/-- What is read back is the layout only if nothing in its paths divides options. -/
theorem undivided_of_readOptions (read : readOptions l.options = some (l.lowers, l.upper, l.work)) :
    l.Undivided := by
  -- Three parts were joined, so three parts are found only if no part holds a comma.
  have three : (Separated.split ',' l.options.toList).length = l.optionParts.length := by
    unfold readOptions at read
    split at read
    case h_1 parts => rw [parts]; rfl
    case h_2 => cases read
  rw [toList_options] at three
  have commas := Separated.not_mem_of_length_split three
  have parts : Separated.split ',' l.options.toList = l.optionParts := by
    rw [toList_options]
    exact Separated.split_join commas
  rw [readOptions_of_split parts] at read
  simp only [Option.some.injEq, Prod.mk.injEq] at read
  obtain ⟨lowers, upper, work⟩ := read
  have nonempty : l.lowers ≠ [] := by
    intro none
    rw [none, List.map_eq_nil_iff] at lowers
    exact Separated.split_ne_nil ':' _ lowers
  -- As many layers are found as were joined, so none of them holds a colon.
  have colons : ∀ p ∈ l.lowers, ':' ∉ p.display.toList := by
    have count := congrArg List.length lowers
    obtain ⟨first, rest, cons⟩ := List.exists_cons_of_ne_nil nonempty
    rw [List.length_map, lowerText, cons] at count
    have plain : ∀ cs ∈ (first :: rest).map (fun p : Path => p.display.toList), ':' ∉ cs :=
      Separated.not_mem_of_length_split (by simpa using count)
    intro p mem
    exact plain _ (List.mem_map_of_mem (cons ▸ mem))
  have texts : ∀ p ∈ l.lowers, ofString p.display = p := by
    rw [split_lowerText nonempty colons, List.map_map] at lowers
    intro p mem
    simpa using List.map_inj_left.mp (lowers.trans (List.map_id _).symm) p mem
  simp only [List.forall_mem_cons, List.mem_append, not_or] at commas
  obtain ⟨⟨-, lowerComma⟩, ⟨-, upperComma⟩, ⟨-, workComma⟩, -⟩ := commas
  refine ⟨nonempty, ?_, ?_, ?_⟩
  · intro p mem
    have comma : ',' ∉ p.display.toList := fun held =>
      lowerComma (Separated.mem_join held (List.mem_map_of_mem mem))
    exact lacks_iff.mpr ⟨texts p mem, by simp [comma, colons p mem]⟩
  · exact lacks_iff.mpr ⟨upper, by simpa using upperComma⟩
  · exact lacks_iff.mpr ⟨work, by simpa using workComma⟩

end Layout

/-! ### Packages of a manifest -/

/-- The path on which a package of a manifest is mounted is a text. -/
theorem Package.exists_text_of_loadManifest {h : Host} {manifest : Path} {packages : List Package}
    (ok : loadManifest h manifest = .ok packages) : ∀ k ∈ packages, ∃ t : String, k.mountPath = .ofString t := by
  intro k mem
  obtain ⟨l, -, described⟩ := loadManifest_eq_ok_iff.mp ok
  obtain ⟨e, -, ⟨_⟩⟩ := exists_describes_of_mem described mem
  exact ⟨_, rfl⟩

namespace Layout

/-- The layout of an instance is undivided if nothing in the root, in the id and in the
packages of the manifest divides options. -/
theorem undivided_ofInstance {h : Host} {manifest root : Path} {packages : List Package} {id : InstanceId}
    (loaded : Package.loadManifest h manifest = .ok packages) (nonempty : packages ≠ [])
    (layers : ∀ k ∈ packages, ∀ c ∈ [',', ':'], c ∉ k.mountPath.display.toList)
    (above : root.Lacks [',']) (name : ',' ∉ id.text.toList) :
    (ofInstance root id (packages.map Package.mountPath)).Undivided := by
  have dir : (Config.instanceDirUnder root id).Lacks [','] :=
    above.childText id.isSegment_text (by decide) (List.forall_mem_singleton.mpr name)
  refine ⟨by simpa [ofInstance] using nonempty, List.forall_mem_map.mpr ?_, ?_, ?_⟩
  · intro k mem
    obtain ⟨t, text⟩ := Package.exists_text_of_loadManifest loaded k mem
    have lacks := layers k mem
    rw [text] at lacks ⊢
    rw [display_ofString] at lacks
    exact ⟨t, rfl, lacks⟩
  · have comma : ',' ∉ "upper".toList := by decide
    exact dir.childText (by decide) (by decide) (List.forall_mem_singleton.mpr comma)
  · have comma : ',' ∉ "work".toList := by decide
    exact dir.childText (by decide) (by decide) (List.forall_mem_singleton.mpr comma)

/-- Options give back the layout exactly when nothing in its paths divides options. Two
such layouts with the same options have the same layers and directories, and an instance
with the packages of a manifest has such a layout unless a comma or colon stands in a path
of theirs, or a comma in the root or the id. -/
theorem options_unambiguous :
    (∀ l : Layout, readOptions l.options = some (l.lowers, l.upper, l.work) ↔ l.Undivided) ∧
    (∀ l l' : Layout, l.Undivided → l'.Undivided → l.options = l'.options →
      l.lowers = l'.lowers ∧ l.upper = l'.upper ∧ l.work = l'.work) ∧
    ∀ (h : Host) (manifest root : Path) (packages : List Package) (id : InstanceId),
      Package.loadManifest h manifest = .ok packages → packages ≠ [] →
      (∀ k ∈ packages, ∀ c ∈ [',', ':'], c ∉ k.mountPath.display.toList) → root.Lacks [','] →
      ',' ∉ id.text.toList → (ofInstance root id (packages.map Package.mountPath)).Undivided := by
  refine ⟨?_, ?_, ?_⟩
  · intro l
    exact ⟨undivided_of_readOptions, Undivided.readOptions_eq⟩
  · intro l l' undivided undivided' same
    have read := undivided.readOptions_eq
    rw [same, undivided'.readOptions_eq] at read
    simp only [Option.some.injEq, Prod.mk.injEq] at read
    obtain ⟨lowers, upper, work⟩ := read
    exact ⟨lowers.symm, upper.symm, work.symm⟩
  · intro h manifest root packages id loaded nonempty layers above name
    exact undivided_ofInstance loaded nonempty layers above name

/-- The layout of an instance with one package is read back. -/
theorem options_unambiguous_sample :
    let l := ofInstance Sample.config.overlayRoot Sample.first ([Sample.package].map Package.mountPath)
    readOptions l.options = some (l.lowers, l.upper, l.work) := by
  obtain ⟨read, -, instances⟩ := options_unambiguous
  have loaded : Package.loadManifest (Sample.host []) Sample.manifest = .ok [Sample.package] := by decide +kernel
  have root : Sample.config.overlayRoot.Lacks [','] :=
    ⟨"/instances", rfl, List.forall_mem_singleton.mpr (by decide)⟩
  have layers : ∀ k ∈ [Sample.package], ∀ c ∈ [',', ':'], c ∉ k.mountPath.display.toList := by
    intro k mem c divides
    rw [List.mem_singleton.mp mem]
    rcases List.mem_pair.mp divides with rfl | rfl
    · decide +kernel
    · decide +kernel
  exact (read _).mpr (instances _ _ _ _ _ loaded (List.cons_ne_nil _ _) layers root (by decide))

/-- A package with a colon in its path is mounted like two packages. -/
theorem options_of_dividing_paths :
    let entry (path : String) :=
      "\x7b\x22pkgMetaDataPath\x22:\x22/m\x22,\x22pkgMountPath\x22:\x22" ++ path ++ "\x22\x7d"
    let manifest (entries : String) := Sample.file ("\x7b\x22packages\x22:[" ++ entries ++ "]\x7d")
    let h := Sample.host [([Sample.name "one"], manifest (entry "/a:/b")),
      ([Sample.name "two"], manifest (entry "/a" ++ "," ++ entry "/b"))]
    let package (path : String) : Package := ⟨.ofString "/m", .ofString path⟩
    let layout (packages : List Package) :=
      ofInstance Sample.config.overlayRoot Sample.first (packages.map Package.mountPath)
    Package.loadManifest h (.ofString "/one") = .ok [package "/a:/b"] ∧
      Package.loadManifest h (.ofString "/two") = .ok [package "/a", package "/b"] ∧
      (layout [package "/a:/b"]).options = (layout [package "/a", package "/b"]).options ∧
      (layout [package "/a:/b"]).lowers ≠ (layout [package "/a", package "/b"]).lowers := by
  decide +kernel

end Layout

end Sandbox
