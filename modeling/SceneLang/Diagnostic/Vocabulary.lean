/-!
# Vocabularies

The words that the language knows.  They are used for warnings and for finding out what a
misspelt word was meant to be; the words themselves have no meaning here.
-/

namespace SceneLang.Vocabulary

def traits : List String :=
  ["grabbable", "throwable", "holdable", "clickable", "hoverable", "draggable", "pointable",
   "scalable", "collidable", "physics", "rigid", "kinematic", "trigger", "gravity", "glowing",
   "emissive", "transparent", "reflective", "animated", "billboard", "networked", "synced",
   "persistent", "owned", "host_only", "stackable", "attachable", "equippable", "consumable",
   "destructible", "anchor", "tracked", "world_locked", "hand_tracked", "eye_tracked",
   "spatial_audio", "ambient", "voice_activated", "state", "reactive", "observable", "computed",
   "shareable", "collaborative", "tweetable", "digital_twin", "twin_sync", "twin_actuator",
   "sensor", "mitosis", "nft", "token_gated", "wallet", "marketplace"]

def geometries : List String :=
  ["cube", "sphere", "cylinder", "cone", "torus", "capsule", "plane", "box", "ring", "circle",
   "line"]

def elements : List String :=
  ["composition", "world", "scene", "object", "orb", "entity", "group", "spatial_group",
   "template", "environment", "logic", "state_machine", "light", "camera", "audio", "panel",
   "button", "text", "model", "particles", "zone", "portal"]

/-- Words that introduce an element with a grammar of its own. -/
def structural : List String :=
  ["logic", "template", "state_machine", "environment"]

def compositions : List String :=
  ["composition", "world", "scene"]

def directives : List String :=
  ["state", "for", "forEach", "while", "if", "else", "import", "manifest", "asset", "semantic",
   "bindings", "world_metadata", "world_config", "zones", "spawn_points", "skybox",
   "ambient_light", "directional_light", "fog", "lighting", "external_api", "generate", "npc",
   "dialog", "platform_event"]

def hooks : List String :=
  ["on_mount", "on_unmount", "on_update", "on_click", "on_hover_enter", "on_hover_exit",
   "on_grab", "on_release", "on_collision", "on_trigger_enter", "on_trigger_exit",
   "on_data_update"]

def properties : List String :=
  ["position", "rotation", "scale", "size", "color", "geometry", "material", "texture",
   "opacity", "visible", "model", "src", "intensity", "radius", "mass"]

def typos : List (String × String) :=
  [("geomety", "geometry"),
   ("geometery", "geometry"),
   ("positon", "position"),
   ("postion", "position"),
   ("rotatoin", "rotation"),
   ("roation", "rotation"),
   ("colour", "color"),
   ("collideable", "collidable"),
   ("grabable", "grabbable"),
   ("matrial", "material")]

def isTrait (word : String) : Bool :=
  traits.contains word

/-- A geometry is built in, or it names a model. -/
def isGeometry (word : String) : Bool :=
  geometries.contains word || "model/".toList.isPrefixOf word.toList ||
    ".glb".toList.isSuffixOf word.toList || ".gltf".toList.isSuffixOf word.toList

def isElement (word : String) : Bool :=
  elements.contains word || geometries.contains word

def isConstruct (word : String) : Bool :=
  isElement word || structural.contains word || compositions.contains word

def isHook (word : String) : Bool :=
  hooks.contains word

def correction? (word : String) : Option String :=
  (typos.find? (·.1 = word)).map (·.2)

end SceneLang.Vocabulary
