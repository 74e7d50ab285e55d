import Sandbox.Generate.Instance

/-!
A small device.

It has a template without a section, a descriptor of graphics without needs, a
manifest of one package that asks for everything a package can ask for, and an empty
overlay root. On it the hypotheses of the theorems about generating are seen to be met.
-/

namespace Sandbox.Sample

/-- A name, given as a text. -/
def name (s : String) : Name :=
  Utf8.encode s.toList

/-- A file with a text. -/
def file (s : String) : Entry :=
  .newFile (Utf8.encode s.toList)

/-- The configuration of the device. -/
def config : Config :=
  { Config.default with
    baseTemplate := .ofString "/template.json"
    graphicsDescriptor := .ofString "/graphics.json"
    overlayRoot := .ofString "/instances" }

/-- The device, on which nobody is known. -/
def generator : Generator :=
  ⟨config, ⟨[], []⟩⟩

/-- What stands on the device from the start. -/
def entries : List (Location × Entry) := [
  ([], .newDirectory),
  ([name "template.json"], file "\x7b\x7d"),
  ([name "graphics.json"], file "\x7b\x22vendorGpuSupport\x22:\x7b\x7d\x7d"),
  ([name "manifest.json"],
    file "\x7b\x22packages\x22:[\x7b\x22pkgMetaDataPath\x22:\x22/package.json\x22,\x22pkgMountPath\x22:\x22/layer\x22\x7d]\x7d"),
  ([name "package.json"], file ("\x7b\x22entryPoint\x22:\x22/bin/app\x22,\x22permissions\x22:[\x22CAP_KILL\x22]," ++
    "\x22envVariables\x22:[\x22HOME=/elsewhere\x22],\x22memoryLimit\x22:\x221G\x22\x7d")),
  ([name "layer"], .newDirectory),
  ([name "instances"], .newDirectory)]

/-- The host, with more entries. -/
def host (more : List (Location × Entry)) : Host :=
  ⟨⟨entries ++ more⟩, [], [], .all⟩

/-- The package. -/
def package : Package :=
  ⟨.ofString "/package.json", .ofString "/layer"⟩

/-- The manifest of the package. -/
def manifest : Path :=
  .ofString "/manifest.json"

/-- Two instances. -/
def first : InstanceId :=
  ⟨"first", by decide⟩

@[inherit_doc first]
def second : InstanceId :=
  ⟨"second", by decide⟩

/-- An application in an instance. -/
def application (id : InstanceId) : Application :=
  ⟨"app", 1000, 1000, id, .ofString "/run/display", .ofString "/storage"⟩

/-- The location of an instance's specification. -/
def specLocation (id : InstanceId) : Location :=
  [name "instances", name id.text, name "config.json"]

end Sandbox.Sample
