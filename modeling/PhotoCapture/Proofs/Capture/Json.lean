import PhotoCapture.Capture.Call
import PhotoCapture.Proofs.Binary.Neutral
import PhotoCapture.Proofs.Json.Layout

namespace PhotoCapture.Call

open Json

variable {call : Call} {z : Double} {w : List Char}

/-- What JSON says of a call. A field that is absent may be null or missing, and the zoom factor may
be any number that is read as it. -/
def slots (call : Call) : List Slot :=
  let text (s : String) := WritesText s.toList
  let timer (n : Int64) (w : List Char) := w = Numeral.signed n.toInt
  [.optional "filterXml" text call.filter,
    .optional "flashMode" text call.flash,
    .optional "cameraFacing" text call.facing,
    .optional "timer" timer call.timer,
    .optional "zoom" WritesReal call.zoom]

section Reading

theorem reads_timer {n : Int64} (h : w = Numeral.signed n.toInt) :
    Reads ((Decoder.integer "i64" Int64.minValue.toInt Int64.maxValue.toInt).map .ofInt) w n ∧
      IsPresent w := by
  subst h
  have low : Int64.minValue.toInt ≤ n.toInt := n.minValue_le_toInt
  have high : n.toInt ≤ Int64.maxValue.toInt := n.toInt_le
  have greatest : Int64.maxValue.toInt ≤ greatestSignificand := by decide
  obtain ⟨reads, present⟩ :=
    reads_integer "i64" ⟨low, high⟩ low (Int.le_trans high greatest)
  have read := reads.map Int64.ofInt
  rw [Int64.ofInt_toInt] at read
  exact ⟨read, present⟩

def stringField (name : String) (set : Option String → Call → Call) (get : Call → Option String)
    (x : Option String) (held : ∀ call, x = get (set x call)) : Component Call :=
  .optional name (.text "a string") set get x (fun s => WritesText s.toList)
    (fun _ _ _ h => reads_text h) held

def parts (call : Call) : List (Component Call) :=
  [stringField "filterXml" (fun x r => { r with filter := x }) (·.filter) call.filter fun _ => rfl,
    stringField "flashMode" (fun x r => { r with flash := x }) (·.flash) call.flash fun _ => rfl,
    stringField "cameraFacing" (fun x r => { r with facing := x }) (·.facing) call.facing
      fun _ => rfl,
    .optional "timer" _ (fun x r => { r with timer := x }) (·.timer) call.timer _
      (fun _ _ _ h => reads_timer h) fun _ => rfl,
    .optional "zoom" _ (fun x r => { r with zoom := x }) (·.zoom) call.zoom _
      (fun _ _ _ h => reads_real h) fun _ => rfl]

theorem keys_distinct (call : Call) : (call.slots.map Slot.key).Nodup := by
  change ["filterXml", "flashMode", "cameraFacing", "timer", "zoom"].Nodup
  decide

theorem parts_makeUp (call : Call) : Component.MakeUp call.parts call where
  distinct := call.keys_distinct
  frame := by simp [parts, stringField, Component.optional, Component.of]
  whole := by
    intro r held
    obtain ⟨filter, flash, facing, timer, zoom⟩ : call.filter = r.filter ∧ call.flash = r.flash ∧
        call.facing = r.facing ∧ call.timer = r.timer ∧ call.zoom = r.zoom := by
      simpa [parts, stringField, Component.optional, Component.of] using held
    cases r
    cases call
    simp_all

theorem ofJson_holdsRecord {text : String} (h : HoldsRecord call.slots text) :
    ofJson text = .ok call :=
  -- the fields and the slots of a call are those of its parts by computation
  decode_record call.parts_makeUp h

end Reading

section Writing

/-- The values in the line of a call, for the slots that are not left out. -/
def written (call : Call) : List (Option (List Char)) :=
  let text (s : String) := writeText s.toList
  [call.filter.map text, call.flash.map text, call.facing.map text,
    call.timer.map fun n => Numeral.signed n.toInt,
    call.zoom.map fun z => (Value.ofDouble z).compact]

theorem map_member {α β : Type} (name : String) (value : α → Value) (field : Option α)
    (f : List Char × Value → β) :
    (member name value field).map f = (field.map fun x => f (name.toList, value x)).toList := by
  cases field <;> rfl

theorem holdsRecord_text {target : Call}
    (takes : ∀ c ∈ target.slots.zip call.written, c.1.Takes c.2) :
    HoldsRecord target.slots call.text := by
  have compact : ∃ members, call.json = .object members ∧
      members.map (fun m => (m.1, m.2.compact)) = chosen (target.slots.zip call.written) := by
    refine ⟨_, rfl, ?_⟩
    simp only [List.map_append, map_member]
    simp [chosen, slots, written, Slot.optional, Value.compact, Value.scalar, Function.comp_def]
  obtain ⟨members, json, pairs⟩ := compact
  have object := writesObject_compact members
  rw [pairs, ← json] at object
  exact holdsRecord_ofList (isRecord_of_written rfl target.keys_distinct takes object)

theorem factor_of_not_finite (h : z.isFinite = false) : factor z = 1 := by
  cases z with
  | nan => rfl
  | number negative rank =>
    have top : rank.val = Binary.Format.double.infinity := by
      have below := of_decide_eq_false h
      omega
    have infinite : (Binary.convert (.number negative rank) : Single) = .infinite negative :=
      if_pos top
    rw [factor, infinite]
    cases negative <;> decide

theorem text_takes {x : Option String} (key : String) :
    (Slot.optional key (fun s => WritesText s.toList) x).Takes
      (x.map fun s => writeText s.toList) :=
  optional_takes (fun s _ => writesText_writeText s.toList) key

theorem timer_takes {x : Option Int64} (key : String) :
    (Slot.optional key (fun n w => w = Numeral.signed n.toInt) x).Takes
      (x.map fun n => Numeral.signed n.toInt) :=
  optional_takes (by intro n _; rfl) key

/-- Only the zoom factor may be other than what is written. -/
theorem slots_take (call : Call) {zoom : Option Double}
    (h : (Slot.optional "zoom" WritesReal zoom).Takes
      (call.zoom.map fun z => (Value.ofDouble z).compact)) :
    ∀ c ∈ ({ call with zoom := zoom } : Call).slots.zip call.written, c.1.Takes c.2 := by
  simp only [slots, written, List.zip_cons_cons, List.zip_nil_right, List.forall_mem_cons]
  exact ⟨text_takes _, text_takes _, text_takes _, timer_takes _, h, fun _ h => nomatch h⟩

end Writing

/-- Every text that says what a call has is read as the call, and its own line is such a text if its
zoom factor is finite and read back from how it is written. A factor that is not finite is lost, and
the request stays the same. -/
theorem decodes_in_any_layout (call : Call) :
    (∀ text, HoldsRecord call.slots text → ofJson text = .ok call) ∧
      ((∀ z ∈ call.zoom, z.isFinite = true ∧ WritesReal z (z.text numberLayout).toList) →
        HoldsRecord call.slots call.text ∧ ofJson call.text = .ok call) ∧
      ((∃ z ∈ call.zoom, z.isFinite = false) →
        ofJson call.text = .ok { call with zoom := none } ∧
          ({ call with zoom := none } : Call).request = call.request) := by
  refine ⟨fun text => ofJson_holdsRecord, fun readBack => ?_, fun ⟨z, hz, notFinite⟩ => ?_⟩
  · have zoom : (Slot.optional "zoom" WritesReal call.zoom).Takes
        (call.zoom.map fun z => (Value.ofDouble z).compact) := by
      refine optional_takes (fun z hz => ?_) "zoom"
      obtain ⟨finite, same⟩ := readBack z hz
      rw [Value.ofDouble, if_pos finite]
      exact same
    have holds := holdsRecord_text (call.slots_take zoom)
    exact ⟨holds, ofJson_holdsRecord holds⟩
  · have zoom : (Slot.optional "zoom" WritesReal none).Takes
        (call.zoom.map fun z => (Value.ofDouble z).compact) := by
      rw [Option.mem_def.mp hz, Option.map_some, Value.ofDouble, notFinite]
      rfl
    refine ⟨ofJson_holdsRecord (holdsRecord_text (call.slots_take zoom)), ?_⟩
    have one : factor 1 = 1 := by decide +kernel
    simp only [request, Option.mem_def.mp hz, Option.getD_none, Option.getD_some, one,
      factor_of_not_finite notFinite]

/-- A call in a text of its own layout: a member that is not one of its fields, a null, fields left
out, white space, and a letter spelled by its code. -/
theorem holdsRecord_reordered :
    HoldsRecord ({ flash := some "on", timer := some (-3) } : Call).slots
      "\x7b\"extra\":[true],\"timer\": -3,\"zoom\":null,\"flashMode\":\"\\u006fn\"\n\x7d" := by
  have space : IsGap [' '] := isGap_space
  have line : IsGap ['\n'] := isGap_newLine 0
  have other : IsValue "[true]".toList := .filled .list (.last (.element isGap_nil .yes isGap_nil))
  have timer : "-3".toList = Numeral.signed (-3 : Int64).toInt := by decide +kernel
  have flash : WritesText "on".toList "\"\\u006fn\"".toList := by
    have zero : Numeral.hexValue? '0' = some 0 := by decide
    have code : IsCode ['0', '0', '6', 'f'] 'o'.toNat :=
      .digits zero zero (k := 6) (l := 15) rfl rfl
    exact ⟨_, .code code (.plain (by decide) (by decide) (by decide) .nil), rfl⟩
  let members : List Member :=
    [.written [] [] [] "extra".toList "[true]".toList,
      .written [] [' '] [] "timer".toList "-3".toList,
      .written [] [] [] "zoom".toList "null".toList,
      .written [] [] ['\n'] "flashMode".toList "\"\\u006fn\"".toList]
  have spelled : ∀ m ∈ members, m.IsSpelled := by
    simp only [members, List.forall_mem_cons]
    exact ⟨Member.written_isSpelled isGap_nil isGap_nil isGap_nil _ _,
      Member.written_isSpelled isGap_nil space isGap_nil _ _,
      Member.written_isSpelled isGap_nil isGap_nil isGap_nil _ _,
      Member.written_isSpelled isGap_nil isGap_nil line _ _, fun _ h => nomatch h⟩
  refine ⟨[], _, [], isGap_nil, ⟨members, ⟨spelled, ?known, ?unknown, ?once, ?left_out⟩,
    .filled (List.cons_ne_nil _ _)⟩, isGap_nil, by decide +kernel⟩
  case known =>
    simpa [members, Member.written, slots, Slot.optional, WritesOptional, timer] using flash
  case unknown => simpa [members, Member.written, slots, Slot.optional] using other
  case once => simp [members, Member.written]
  case left_out => simp [members, Member.written, slots, Slot.optional]

/-- Such a text, a factor that is written and read back, and one that is not a number. -/
theorem reordered_and_written_calls_decode :
    ofJson "\x7b\"extra\":[true],\"timer\": -3,\"zoom\":null,\"flashMode\":\"\\u006fn\"\n\x7d" =
        .ok { flash := some "on", timer := some (-3) } ∧
      ofJson ({ zoom := some 2.5 } : Call).text = .ok { zoom := some 2.5 } ∧
      ofJson ({ facing := some "front", zoom := some .nan } : Call).text =
        .ok { facing := some "front" } := by
  have readBack : ∀ z ∈ ({ zoom := some 2.5 } : Call).zoom,
      z.isFinite = true ∧ WritesReal z (z.text numberLayout).toList := by
    intro z hz
    obtain rfl := Option.some.inj hz
    decide +kernel
  exact ⟨(decodes_in_any_layout _).1 _ holdsRecord_reordered,
    ((decodes_in_any_layout _).2.1 readBack).2,
    ((decodes_in_any_layout _).2.2 ⟨.nan, rfl, rfl⟩).1⟩

end PhotoCapture.Call
