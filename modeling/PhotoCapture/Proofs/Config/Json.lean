import PhotoCapture.Config.Place
import PhotoCapture.Proofs.Files.Writing
import PhotoCapture.Proofs.Json.Layout

namespace PhotoCapture

open Json

def Sensor.slots (sensor : Sensor) : List Slot :=
  [⟨"width", (· = Numeral.signed sensor.width.toNat), sensor.width = 640⟩,
    ⟨"height", (· = Numeral.signed sensor.height.toNat), sensor.height = 480⟩,
    ⟨"jpeg_quality", (· = Numeral.signed sensor.quality.toNat), sensor.quality = 92⟩]

def Config.slots (config : Config) : List Slot :=
  [.optional "output_dir" (fun s => WritesText s.toList) config.outputDir,
    ⟨"session_policy", WritesText config.policy.name.toList, config.policy = .exclusive⟩,
    ⟨"virtual_camera", IsRecord config.sensor.slots, config.sensor = {}⟩]

section Numbers

variable {β : Type} {w : List Char}

theorem reads_natural (expected : String) {n : Nat} {greatest : Int} (f : Int → β)
    (bounded : n ≤ greatest) (high : greatest ≤ greatestSignificand) (h : w = Numeral.signed n) :
    Reads ((Decoder.integer expected 0 greatest).map f) w (f n) := by
  subst h
  have least : Int64.minValue.toInt ≤ 0 := by decide
  have nonnegative : (0 : Int) ≤ n := Int.natCast_nonneg n
  obtain ⟨reads, -⟩ := reads_integer expected ⟨nonnegative, bounded⟩
    (Int.le_trans least nonnegative) (Int.le_trans bounded high)
  exact reads.map f

theorem reads_size {n : UInt32} (h : w = Numeral.signed n.toNat) :
    Reads ((Decoder.integer "u32" 0 (UInt32.size - 1)).map fun n => UInt32.ofNat n.toNat) w n := by
  have below : n.toNat < UInt32.size := n.toNat_lt
  have high : ((UInt32.size : Int) - 1) ≤ greatestSignificand := by decide
  have reads := reads_natural "u32" (fun n => UInt32.ofNat n.toNat)
    (show (n.toNat : Int) ≤ UInt32.size - 1 by omega) high h
  simpa only [Int.toNat_natCast, UInt32.ofNat_toNat] using reads

theorem reads_quality {n : UInt8} (h : w = Numeral.signed n.toNat) :
    Reads ((Decoder.integer "u8" 0 255).map fun n => UInt8.ofNat n.toNat) w n := by
  have below : n.toNat < 256 := n.toNat_lt
  have high : (255 : Int) ≤ greatestSignificand := by decide
  have reads := reads_natural "u8" (fun n => UInt8.ofNat n.toNat)
    (show (n.toNat : Int) ≤ 255 by omega) high h
  simpa only [Int.toNat_natCast, UInt8.ofNat_toNat] using reads

end Numbers

namespace Sensor

variable {w : List Char}

def parts (sensor : Sensor) : List (Component Sensor) :=
  [.of "width" _ (fun x r => { r with width := x }) (·.width) sensor.width _
      (fun _ h => reads_size h) fun _ => rfl,
    .of "height" _ (fun x r => { r with height := x }) (·.height) sensor.height _
      (fun _ h => reads_size h) fun _ => rfl,
    .of "jpeg_quality" _ (fun x r => { r with quality := x }) (·.quality) sensor.quality _
      (fun _ h => reads_quality h) fun _ => rfl]

theorem keys_distinct (sensor : Sensor) : (sensor.slots.map Slot.key).Nodup := by
  change ["width", "height", "jpeg_quality"].Nodup
  decide

theorem parts_makeUp (sensor : Sensor) : Component.MakeUp sensor.parts sensor where
  distinct := sensor.keys_distinct
  frame := by simp [parts, Component.of]
  whole := by
    intro r held
    obtain ⟨width, height, quality⟩ : sensor.width = r.width ∧ sensor.height = r.height ∧
        sensor.quality = r.quality := by
      simpa [parts, Component.of] using held
    cases r
    cases sensor
    simp_all

theorem reads_sensor {sensor : Sensor} (h : IsRecord sensor.slots w) : Reads decoder w sensor :=
  reads_record sensor.parts_makeUp h

theorem isRecord_pretty (sensor : Sensor) (indent : Nat) :
    IsRecord sensor.slots (sensor.json.pretty indent) := by
  let written := [Numeral.signed sensor.width.toNat, Numeral.signed sensor.height.toNat,
    Numeral.signed sensor.quality.toNat].map some
  obtain ⟨members, json, pairs⟩ : ∃ members, sensor.json = .object members ∧
      members.map (fun m => (m.1, m.2.pretty (indent + 2))) = chosen (sensor.slots.zip written) :=
    ⟨_, rfl, rfl⟩
  have object := writesObject_pretty indent members
  rw [pairs, ← json] at object
  have takes : ∀ c ∈ sensor.slots.zip written, c.1.Takes c.2 := by
    simp [slots, written, Slot.Takes]
  exact isRecord_of_written rfl sensor.keys_distinct takes object

end Sensor

namespace Config

variable {config : Config} {w : List Char} {files files' : Files} {path : String}

theorem reads_policy {policy : Session.Policy} (h : WritesText policy.name.toList w) :
    Reads (.variant Session.Policy.named) w policy := by
  refine reads_variant h ?_
  cases policy <;> decide

def parts (config : Config) : List (Component Config) :=
  [.optional "output_dir" (.text "path string") (fun x r => { r with outputDir := x }) (·.outputDir)
      config.outputDir _ (fun _ _ _ h => reads_text h) fun _ => rfl,
    .of "session_policy" _ (fun x r => { r with policy := x }) (·.policy) config.policy _
      (fun _ h => reads_policy h) fun _ => rfl,
    .of "virtual_camera" _ (fun x r => { r with sensor := x }) (·.sensor) config.sensor _
      (fun _ h => Sensor.reads_sensor h) fun _ => rfl]

theorem keys_distinct (config : Config) : (config.slots.map Slot.key).Nodup := by
  change ["output_dir", "session_policy", "virtual_camera"].Nodup
  decide

theorem parts_makeUp (config : Config) : Component.MakeUp config.parts config where
  distinct := config.keys_distinct
  frame := by simp [parts, Component.optional, Component.of]
  whole := by
    intro r held
    obtain ⟨outputDir, policy, sensor⟩ : config.outputDir = r.outputDir ∧
        config.policy = r.policy ∧ config.sensor = r.sensor := by
      simpa [parts, Component.optional, Component.of] using held
    cases r
    cases config
    simp_all

theorem ofJson_holdsRecord {text : String} (h : HoldsRecord config.slots text) :
    ofJson text = .ok config := by
  have decoded : decoder.decode text = .ok config := decode_record config.parts_makeUp h
  rw [ofJson, decoded]
  rfl

theorem holdsRecord_text (config : Config) : HoldsRecord config.slots config.text := by
  let directory := config.outputDir.map fun s => writeText s.toList
  let written := [directory.getD "null".toList, writeText config.policy.name.toList,
    config.sensor.json.pretty 2].map some
  have pretty : ((config.outputDir.map fun s => Value.text s.toList).getD .null).pretty 2 =
      directory.getD "null".toList := by
    unfold directory
    cases config.outputDir <;> rfl
  obtain ⟨members, json, pairs⟩ : ∃ members, config.json = .object members ∧
      members.map (fun m => (m.1, m.2.pretty 2)) = chosen (config.slots.zip written) := by
    refine ⟨_, rfl, ?_⟩
    simp only [List.map_cons, pretty]
    rfl
  have object := writesObject_pretty 0 members
  rw [pairs, ← json] at object
  have takes : ∀ c ∈ config.slots.zip written, c.1.Takes c.2 := by
    have path : WritesOptional (fun s => WritesText s.toList) config.outputDir
        (directory.getD "null".toList) := by
      unfold directory
      cases config.outputDir with
      | none => rfl
      | some s => exact writesText_writeText s.toList
    simp only [slots, written, List.map_cons, List.zip_cons_cons, List.forall_mem_cons]
    exact ⟨path, writesText_writeText _, config.sensor.isRecord_pretty 2, fun _ h => nomatch h⟩
  exact holdsRecord_ofList (isRecord_of_written rfl config.keys_distinct takes object)

theorem read_saveTo (h : config.saveTo files path = (.ok (), files')) :
    files'.read path = .ok config.text := by
  unfold saveTo at h
  simp only at h
  split at h
  next => cases (Prod.mk.inj h).1
  next =>
    split at h
    next written =>
      obtain rfl := (Prod.mk.inj h).2
      exact Files.read_write written
    next => cases (Prod.mk.inj h).1

/-- Every text that says what a configuration has is read as the configuration, its own text is one
of them, and a configuration that was saved is loaded from where it was saved. -/
theorem decodes_and_reloads (config : Config) :
    (∀ text, HoldsRecord config.slots text → ofJson text = .ok config) ∧
      ofJson config.text = .ok config ∧
      (∀ files path files', config.saveTo files path = (.ok (), files') →
        loadFrom files' path = .ok config) := by
  have reread := ofJson_holdsRecord config.holdsRecord_text
  refine ⟨fun text => ofJson_holdsRecord, reread, fun files path files' saved => ?_⟩
  rw [loadFrom, read_saveTo saved]
  exact reread

/-- A wide sensor in an object inside an object, both with members of other kinds. -/
theorem holdsRecord_wide : HoldsRecord ({ sensor := { width := 800 } } : Config).slots
    "\x7b\"theme\":\x7b \x7d,\"virtual_camera\":\x7b\"note\":null,\"width\":800\x7d\x7d" := by
  have spelled (key value : List Char) : (Member.written [] [] [] key value).IsSpelled :=
    Member.written_isSpelled isGap_nil isGap_nil isGap_nil key value
  have width : "800".toList = Numeral.signed (800 : UInt32).toNat := by decide +kernel
  let inner : List Member :=
    [.written [] [] [] "note".toList "null".toList, .written [] [] [] "width".toList "800".toList]
  have sensor : IsRecord ({ width := 800 } : Sensor).slots
      "\x7b\"note\":null,\"width\":800\x7d".toList := by
    refine ⟨inner, ⟨?spelled, ?known, ?unknown, ?once, ?left_out⟩, .filled (List.cons_ne_nil _ _)⟩
    case spelled => simp [inner, spelled]
    case known => simpa [inner, Member.written, Sensor.slots] using width
    case unknown => simpa [inner, Member.written, Sensor.slots] using IsValue.null
    case once => simp [inner, Member.written]
    case left_out => simp [inner, Member.written, Sensor.slots]
  have theme : IsValue "\x7b \x7d".toList := .empty .object isGap_space
  let members : List Member :=
    [.written [] [] [] "theme".toList "\x7b \x7d".toList,
      .written [] [] [] "virtual_camera".toList "\x7b\"note\":null,\"width\":800\x7d".toList]
  refine ⟨[], _, [], isGap_nil, ⟨members, ⟨?spelled, ?known, ?unknown, ?once, ?left_out⟩,
    .filled (List.cons_ne_nil _ _)⟩, isGap_nil, by decide +kernel⟩
  case spelled => simp [members, spelled]
  case known => simpa [members, Member.written, slots, Slot.optional] using sensor
  case unknown => simpa [members, Member.written, slots, Slot.optional] using theme
  case once => simp [members, Member.written]
  case left_out => simp [members, Member.written, slots, Slot.optional]

/-- Such a text, and a configuration that is saved below the root and loaded again. -/
theorem wide_sensor_reloads :
    ofJson "\x7b\"theme\":\x7b \x7d,\"virtual_camera\":\x7b\"note\":null,\"width\":800\x7d\x7d" =
        .ok { sensor := { width := 800 } } ∧
      (({ outputDir := some "/tmp" } : Config).saveTo .root "/shutter/config.json").1 = .ok () ∧
      loadFrom (({ outputDir := some "/tmp" } : Config).saveTo .root "/shutter/config.json").2
        "/shutter/config.json" = .ok { outputDir := some "/tmp" } := by
  have saved :
      (({ outputDir := some "/tmp" } : Config).saveTo .root "/shutter/config.json").1 = .ok () := by
    rfl
  exact ⟨(decodes_and_reloads _).1 _ holdsRecord_wide, saved,
    (decodes_and_reloads _).2.2 _ _ _ (Prod.ext saved rfl)⟩

end Config

end PhotoCapture
