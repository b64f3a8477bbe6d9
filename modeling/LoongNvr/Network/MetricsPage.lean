import LoongNvr.Channel.ChannelMonitor
import LoongNvr.Support.Exposition
import LoongNvr.Support.JsonMembers
import Mathlib.Data.Rat.Floor

/-!
# Network — MetricsPage

`HandleMetrics`: the page on which the process shows its metrics, those of the system, of each disk
and of each channel.

* `proper_entries`: every line by itself is one of the format, as far as its label values allow.
* `pageRight_iff`: the page can be read, is right and shows what it is made of exactly where there
  is at most one disk and one channel and their texts have nothing to escape.
-/

namespace LoongNvr.Network
open LoongNvr.Channel Support
open Support.Exposition (Block Clean Line Sample Valid isBlank isName isValue kinds parse samples)

/-! ### What is shown -/

structure DiskInfo where
  path : List Char
  freeGb : ℤ := 0
  usagePercent : ℚ := 0

structure SystemMetrics where
  cpuUsagePercent : ℚ := 0
  memoryTotalMb : ℤ := 0
  memoryUsedMb : ℤ := 0
  memoryUsagePercent : ℚ := 0
  disks : List DiskInfo := []
  gpuAvailable : Bool := false
  gpuUsagePercent : ℚ := 0
  gpuMemoryUsedMb : ℤ := 0
  gpuTempCelsius : ℚ := 0
  uptimeSeconds : ℤ := 0
  processThreads : ℤ := 0

/-! ### Numbers -/

/-- To the nearest integer, a half to the even one. -/
def roundHalfEven (x : ℚ) : ℤ :=
  if x - ⌊x⌋ < 1 / 2 then ⌊x⌋
  else if 1 / 2 < x - ⌊x⌋ then ⌊x⌋ + 1
  else if 2 ∣ ⌊x⌋ then ⌊x⌋ else ⌊x⌋ + 1

/-- `std::to_string` of a `double`: six digits behind the point. -/
def toStringDouble (x : ℚ) : List Char :=
  let n := (roundHalfEven (|x| * 10 ^ 6)).toNat
  (if x < 0 then ['-'] else []) ++
    (Nat.toDigits 10 (n / 10 ^ 6) ++ '.' :: padded 6 (n % 10 ^ 6 : ℕ))

/-! ### The page -/

/-- What is in braces behind the name of a metric. -/
inductive Labels
  | none
  | disk (path : List Char)
  | channel (id : ℤ) (name : List Char)

/-- The labels, the texts put between quotation marks as they are. -/
def Labels.text : Labels → List Char
  | .none => []
  | .disk path => "\x7bpath=\"".toList ++ path ++ "\"\x7d".toList
  | .channel id name =>
      "\x7bchannel_id=\"".toList ++ decimal id ++ "\",name=\"".toList ++ name ++ "\"\x7d".toList

structure Metric where
  name : String
  doc : String
  kind : String

def gauge (name doc : String) : Metric := ⟨name, doc, "gauge"⟩

def counter (name doc : String) : Metric := ⟨name, doc, "counter"⟩

/-- The three lines in which a value is shown. -/
structure Entry where
  metric : Metric
  labels : Labels := .none
  value : List Char

def Entry.text (e : Entry) : List Char :=
  ("# HELP ".toList ++ e.metric.name.toList ++ ' ' :: e.metric.doc.toList ++ ['\n']) ++
    ("# TYPE ".toList ++ e.metric.name.toList ++ ' ' :: e.metric.kind.toList ++ ['\n']) ++
    (e.metric.name.toList ++ e.labels.text ++ ' ' :: e.value ++ ['\n'])

def diskEntries (d : DiskInfo) : List Entry :=
  [⟨gauge "loong_disk_usage_percent" "Disk usage percentage", .disk d.path,
      toStringDouble d.usagePercent⟩,
    ⟨gauge "loong_disk_free_bytes" "Disk free space in bytes", .disk d.path,
      decimal (d.freeGb * 1073741824)⟩]

def gpuEntries (m : SystemMetrics) : List Entry :=
  [⟨gauge "loong_gpu_usage_percent" "GPU usage percentage", .none,
      toStringDouble m.gpuUsagePercent⟩,
    ⟨gauge "loong_gpu_memory_used_bytes" "GPU memory used", .none,
      decimal (m.gpuMemoryUsedMb * 1048576)⟩,
    ⟨gauge "loong_gpu_temperature_celsius" "GPU temperature", .none,
      toStringDouble m.gpuTempCelsius⟩]

def systemEntries (m : SystemMetrics) : List Entry :=
  [⟨gauge "loong_cpu_usage_percent" "CPU usage percentage", .none,
      toStringDouble m.cpuUsagePercent⟩,
    ⟨gauge "loong_memory_used_bytes" "Memory used in bytes", .none,
      decimal (m.memoryUsedMb * 1048576)⟩,
    ⟨gauge "loong_memory_total_bytes" "Memory total in bytes", .none,
      decimal (m.memoryTotalMb * 1048576)⟩,
    ⟨gauge "loong_memory_usage_percent" "Memory usage percentage", .none,
      toStringDouble m.memoryUsagePercent⟩,
    ⟨gauge "loong_uptime_seconds" "System uptime in seconds", .none,
      decimal m.uptimeSeconds⟩,
    ⟨gauge "loong_process_threads" "Number of process threads", .none,
      decimal m.processThreads⟩] ++
    (m.disks.flatMap diskEntries ++ if m.gpuAvailable then gpuEntries m else [])

def channelEntries (s : ChannelStatus) : List Entry :=
  [⟨gauge "loong_channel_fps_in" "Input FPS per channel", .channel s.id s.name.toList,
      decimal s.fpsIn⟩,
    ⟨gauge "loong_channel_fps_decode" "Decode FPS per channel", .channel s.id s.name.toList,
      decimal s.fpsDecode⟩,
    ⟨gauge "loong_channel_fps_ai" "AI FPS per channel", .channel s.id s.name.toList,
      decimal s.fpsAi⟩,
    ⟨counter "loong_channel_frames_processed" "Total frames processed",
      .channel s.id s.name.toList, decimal s.framesProcessed⟩,
    ⟨counter "loong_channel_frames_dropped" "Total frames dropped", .channel s.id s.name.toList,
      decimal s.framesDropped⟩]

def statusEntries (statuses : List ChannelStatus) : List Entry :=
  [⟨gauge "loong_channels_total" "Total number of channels", .none,
      decimal statuses.length⟩,
    ⟨gauge "loong_channels_running" "Number of running channels", .none,
      decimal (statuses.countP (·.state = .running))⟩] ++
    statuses.flatMap channelEntries

/-- What the page says, from the system monitor and the channel manager, where there are ones. -/
def metricEntries (monitor : Option SystemMetrics) (manager : Option (List ChannelStatus)) :
    List Entry :=
  monitor.elim [] systemEntries ++ manager.elim [] statusEntries

def handleMetrics (monitor : Option SystemMetrics) (manager : Option (List ChannelStatus)) :
    List Char :=
  (metricEntries monitor manager).flatMap Entry.text

/-! ### What is meant -/

def Labels.pairs : Labels → List (List Char × List Char)
  | .none => []
  | .disk path => [("path".toList, path)]
  | .channel id name => [("channel_id".toList, decimal id), ("name".toList, name)]

/-- The sample that is meant. -/
def Entry.sample (e : Entry) : Sample := ⟨e.metric.name.toList, e.labels.pairs, e.value⟩

def Entry.block (e : Entry) : Block := ⟨e.metric.doc.toList, e.metric.kind.toList, e.sample⟩

/-- The page can be read, its lines are right together, and they show the samples that are meant. -/
def PageRight (monitor : Option SystemMetrics) (manager : Option (List ChannelStatus)) : Prop :=
  ∃ lines, parse (handleMetrics monitor manager) = some lines ∧ Valid lines ∧
    samples lines = (metricEntries monitor manager).map Entry.sample

def disksOf (monitor : Option SystemMetrics) : List DiskInfo := monitor.elim [] (·.disks)

def statusesOf (manager : Option (List ChannelStatus)) : List ChannelStatus := manager.getD []

/-! ### Values -/

/-- A value that can stand behind a blank. -/
def IsShown (value : List Char) : Prop :=
  isValue value = true ∧ ∀ c ∈ value, isBlank c = false ∧ c ≠ '\n' ∧ c ≠ '"'

theorem isShown_of_isNumber {value : List Char} (hnumber : JsonText.isNumber value = true)
    (hchars : ∀ c ∈ value, c.isDigit = true ∨ c = '-' ∨ c = '.') : IsShown value := by
  refine ⟨by rw [isValue, hnumber, Bool.true_or], fun c hc => ?_⟩
  rw [isBlank, decide_eq_false_iff_not]
  rcases hchars c hc with hdigit | rfl | rfl
  · refine ⟨?_, ?_, ?_⟩
    · rintro (rfl | rfl) <;> exact absurd hdigit (by decide)
    · rintro rfl
      exact absurd hdigit (by decide)
    · rintro rfl
      exact absurd hdigit (by decide)
  · decide
  · decide

theorem mem_decimal {n : ℤ} {c : Char} (h : c ∈ decimal n) : c.isDigit = true ∨ c = '-' := by
  rw [decimal] at h
  split at h
  · rcases List.mem_cons.mp h with rfl | hdigit
    · exact .inr rfl
    · exact .inl (isDigit_of_mem_toDigits hdigit)
  · exact .inl (isDigit_of_mem_toDigits h)

theorem isShown_decimal (n : ℤ) : IsShown (decimal n) :=
  isShown_of_isNumber (JsonText.isNumber_decimal n) fun _ hc => (mem_decimal hc).imp_right .inl

theorem clean_decimal (n : ℤ) : Clean (decimal n) := by
  intro c hc
  refine ⟨?_, ?_, ?_⟩ <;>
    (rintro rfl; rcases mem_decimal hc with h | h <;> exact absurd h (by decide))

/-- The digits behind the point, which are some. -/
theorem isFraction_padded (width n : ℕ) : JsonText.isFraction ('.' :: padded width n) = true := by
  have hdigits : ∀ c ∈ padded width n, c.isDigit = true := by
    intro c hc
    rcases mem_padded hc with hdigit | rfl
    · exact hdigit
    · exact absurd (sign_mem_padded.mp hc) (by omega)
  obtain ⟨d, ds, hcons⟩ : ∃ d ds, padded width n = d :: ds := by
    refine List.exists_cons_of_ne_nil fun hnil => ?_
    have hempty : decimal n = [] := (List.append_eq_nil_iff.mp hnil).2
    have hnumber := JsonText.isNumber_decimal n
    rw [hempty] at hnumber
    cases hnumber
  rw [hcons] at hdigits ⊢
  obtain ⟨hd, hds⟩ := List.forall_mem_cons.mp hdigits
  rw [JsonText.isFraction, hd, List.dropWhile_eq_nil_iff.mpr hds]
  rfl

/-- A number with digits behind the point. -/
theorem isUnsigned_point (n : ℕ) {rest : List Char} (h : JsonText.isFraction ('.' :: rest) = true) :
    JsonText.isUnsigned (Nat.toDigits 10 n ++ '.' :: rest) = true := by
  rcases Nat.eq_zero_or_pos n with rfl | hpos
  · exact h
  · obtain ⟨c, cs, hdigits, hc⟩ := JsonText.exists_toDigits hpos
    have hall : ∀ d ∈ c :: cs, d.isDigit = true :=
      fun d hd => isDigit_of_mem_toDigits (hdigits ▸ hd)
    obtain ⟨hdigit, hcs⟩ := List.forall_mem_cons.mp hall
    rw [hdigits, List.cons_append, JsonText.isUnsigned, if_neg hc, hdigit,
      List.dropWhile_append_of_pos hcs, List.dropWhile_cons_of_neg (by decide), h]
    rfl

theorem isShown_toStringDouble (x : ℚ) : IsShown (toStringDouble x) := by
  obtain ⟨n, hn⟩ : ∃ n, n = (roundHalfEven (|x| * 10 ^ 6)).toNat := ⟨_, rfl⟩
  have hunsigned := isUnsigned_point (n / 10 ^ 6) (isFraction_padded 6 (n % 10 ^ 6))
  have hchars : ∀ c ∈ Nat.toDigits 10 (n / 10 ^ 6) ++ '.' :: padded 6 (n % 10 ^ 6 : ℕ),
      c.isDigit = true ∨ c = '-' ∨ c = '.' := by
    intro c hc
    rcases List.mem_append.mp hc with hdigit | hc
    · exact .inl (isDigit_of_mem_toDigits hdigit)
    · rcases List.mem_cons.mp hc with rfl | hpadded
      · exact .inr (.inr rfl)
      · exact (mem_padded hpadded).imp_right .inl
  rw [toStringDouble, ← hn]
  split
  · refine isShown_of_isNumber hunsigned fun c hc => ?_
    rcases List.mem_cons.mp hc with rfl | hc
    · exact .inr (.inl rfl)
    · exact hchars c hc
  · refine isShown_of_isNumber ?_ hchars
    rw [List.nil_append, JsonText.isNumber_of_head?_ne, hunsigned]
    intro hhead
    rw [List.head?_append_of_ne_nil] at hhead
    · exact absurd (isDigit_of_mem_toDigits (List.mem_of_head? hhead)) (by decide)
    · exact Nat.toDigits_ne_nil

/-! ### Lines -/

/-- Its name, text and type are ones. -/
structure Metric.Proper (m : Metric) : Prop where
  name : isName m.name.toList = true
  doc : '\n' ∉ m.doc.toList
  begin : ∀ c ∈ m.doc.toList.head?, isBlank c = false
  kind : m.kind.toList ∈ kinds

instance (m : Metric) : Decidable m.Proper :=
  decidable_of_iff (isName m.name.toList = true ∧ '\n' ∉ m.doc.toList ∧
      m.doc.toList.head?.all (!isBlank ·) = true ∧ m.kind.toList ∈ kinds)
    ⟨fun ⟨hname, hdoc, hbegin, hkind⟩ =>
        ⟨hname, hdoc, by simpa [Option.all_eq_true] using hbegin, hkind⟩,
      fun h => ⟨h.name, h.doc, by simpa [Option.all_eq_true] using h.begin, h.kind⟩⟩

structure Entry.Proper (e : Entry) : Prop where
  metric : e.metric.Proper
  value : IsShown e.value

theorem proper_decimal {metric : Metric} (h : metric.Proper) (labels : Labels) (n : ℤ) :
    Entry.Proper ⟨metric, labels, decimal n⟩ := ⟨h, isShown_decimal n⟩

theorem proper_double {metric : Metric} (h : metric.Proper) (labels : Labels) (x : ℚ) :
    Entry.Proper ⟨metric, labels, toStringDouble x⟩ := ⟨h, isShown_toStringDouble x⟩

/-- A name and a text that are given by their characters. -/
theorem proper_metric {name doc kind : List Char}
    (h : isName name = true ∧ '\n' ∉ doc ∧ doc.head?.all (!isBlank ·) = true ∧ kind ∈ kinds) :
    Metric.Proper ⟨String.ofList name, String.ofList doc, String.ofList kind⟩ where
  name := by simpa only [String.toList_ofList] using h.1
  doc := by simpa only [String.toList_ofList] using h.2.1
  begin := by simpa [String.toList_ofList, Option.all_eq_true] using h.2.2.1
  kind := by simpa only [String.toList_ofList] using h.2.2.2

theorem proper_diskEntries (d : DiskInfo) : ∀ e ∈ diskEntries d, e.Proper := by
  simp only [diskEntries, List.forall_mem_cons, List.not_mem_nil, false_implies, implies_true,
    and_true]
  exact ⟨proper_double (proper_metric (by decide)) _ _,
    proper_decimal (proper_metric (by decide)) _ _⟩

theorem proper_gpuEntries (m : SystemMetrics) : ∀ e ∈ gpuEntries m, e.Proper := by
  simp only [gpuEntries, List.forall_mem_cons, List.not_mem_nil, false_implies, implies_true,
    and_true]
  exact ⟨proper_double (proper_metric (by decide)) _ _,
    proper_decimal (proper_metric (by decide)) _ _,
    proper_double (proper_metric (by decide)) _ _⟩

theorem proper_systemEntries (m : SystemMetrics) : ∀ e ∈ systemEntries m, e.Proper := by
  intro e he
  rcases List.mem_append.mp he with hfixed | he
  · clear he
    revert e
    simp only [List.forall_mem_cons, List.not_mem_nil, false_implies, implies_true, and_true]
    exact ⟨proper_double (proper_metric (by decide)) _ _,
      proper_decimal (proper_metric (by decide)) _ _,
      proper_decimal (proper_metric (by decide)) _ _,
      proper_double (proper_metric (by decide)) _ _,
      proper_decimal (proper_metric (by decide)) _ _,
      proper_decimal (proper_metric (by decide)) _ _⟩
  · rcases List.mem_append.mp he with hdisk | hgpu
    · obtain ⟨d, -, hd⟩ := List.mem_flatMap.mp hdisk
      exact proper_diskEntries d e hd
    · split at hgpu
      · exact proper_gpuEntries m e hgpu
      · exact absurd hgpu List.not_mem_nil

theorem proper_channelEntries (s : ChannelStatus) : ∀ e ∈ channelEntries s, e.Proper := by
  simp only [channelEntries, List.forall_mem_cons, List.not_mem_nil, false_implies, implies_true,
    and_true]
  exact ⟨proper_decimal (proper_metric (by decide)) _ _,
    proper_decimal (proper_metric (by decide)) _ _,
    proper_decimal (proper_metric (by decide)) _ _,
    proper_decimal (proper_metric (by decide)) _ _,
    proper_decimal (proper_metric (by decide)) _ _⟩

theorem proper_statusEntries (statuses : List ChannelStatus) :
    ∀ e ∈ statusEntries statuses, e.Proper := by
  intro e he
  rcases List.mem_append.mp he with hfixed | hchannel
  · clear he
    revert e
    simp only [List.forall_mem_cons, List.not_mem_nil, false_implies, implies_true, and_true]
    exact ⟨proper_decimal (proper_metric (by decide)) _ _,
      proper_decimal (proper_metric (by decide)) _ _⟩
  · obtain ⟨s, -, hs⟩ := List.mem_flatMap.mp hchannel
    exact proper_channelEntries s e hs

/-- **Everything but the label values is as the format has it.** -/
theorem proper_metricEntries (monitor : Option SystemMetrics)
    (manager : Option (List ChannelStatus)) : ∀ e ∈ metricEntries monitor manager, e.Proper := by
  intro e he
  rcases List.mem_append.mp he with hsystem | hstatus
  · cases monitor with
    | none => exact absurd hsystem List.not_mem_nil
    | some m => exact proper_systemEntries m e hsystem
  · cases manager with
    | none => exact absurd hstatus List.not_mem_nil
    | some statuses => exact proper_statusEntries statuses e hstatus

theorem proper_block {e : Entry} (h : e.Proper) : e.block.Proper := by
  have hlabels : ∀ label ∈ e.labels.pairs, Exposition.isLabelName label.1 = true := by
    cases e.labels with
    | none => exact fun _ hl => absurd hl List.not_mem_nil
    | disk path =>
        simp only [Labels.pairs, List.mem_singleton, forall_eq]
        decide
    | channel id name =>
        simp only [Labels.pairs, List.forall_mem_cons, List.not_mem_nil, false_implies,
          implies_true, and_true]
        decide
  simp only [Block.Proper, Block.lines, List.forall_mem_cons, List.not_mem_nil, false_implies,
    implies_true, and_true]
  exact ⟨⟨h.metric.name, h.metric.doc, h.metric.begin⟩, ⟨h.metric.name, h.metric.kind⟩,
    h.metric.name, hlabels, h.value.1, h.value.2⟩

/-- The line of a sample, nothing escaped. -/
theorem sampleText_sample (e : Entry) :
    Exposition.sampleText id e.sample =
      e.metric.name.toList ++ e.labels.text ++ ' ' :: e.value := by
  obtain ⟨metric, labels, value⟩ := e
  cases labels with
  | none =>
      show metric.name.toList ++ ' ' :: value = metric.name.toList ++ [] ++ ' ' :: value
      rw [List.append_nil]
  | disk path =>
      show metric.name.toList ++ ("\x7bpath=\"".toList ++ (path ++ ['"']) ++ '}' :: ' ' :: value) =
        metric.name.toList ++ ("\x7bpath=\"".toList ++ path ++ "\"\x7d".toList) ++ ' ' :: value
      simp only [List.append_assoc]
      rfl
  | channel id name =>
      show metric.name.toList ++ ("\x7bchannel_id=\"".toList ++ (decimal id ++ ['"']) ++
          (",name=\"".toList ++ (name ++ ['"']) ++ '}' :: ' ' :: value)) =
        metric.name.toList ++ ("\x7bchannel_id=\"".toList ++ decimal id ++ "\",name=\"".toList ++
          name ++ "\"\x7d".toList) ++ ' ' :: value
      simp only [List.append_assoc]
      rfl

/-- The text of a metric is that of its lines, nothing escaped. -/
theorem text_block (e : Entry) : Exposition.text id e.block.lines = e.text := by
  obtain ⟨help, hhelp⟩ : ∃ help, help =
      Exposition.lineText id (.help e.metric.name.toList e.metric.doc.toList) ++ ['\n'] := ⟨_, rfl⟩
  obtain ⟨type, htype⟩ : ∃ type, type =
      Exposition.lineText id (.type e.metric.name.toList e.metric.kind.toList) ++ ['\n'] := ⟨_, rfl⟩
  have hlines : e.block.lines = [.help e.metric.name.toList e.metric.doc.toList,
      .type e.metric.name.toList e.metric.kind.toList, .sample e.sample] := rfl
  have hsample : Exposition.lineText id (.sample e.sample) =
      e.metric.name.toList ++ e.labels.text ++ ' ' :: e.value := sampleText_sample e
  have htext : e.text =
      help ++ type ++ (e.metric.name.toList ++ e.labels.text ++ ' ' :: e.value ++ ['\n']) := by
    rw [hhelp, htype]
    rfl
  rw [htext, ← hsample, hlines, Exposition.text]
  simp only [List.flatMap_cons, List.flatMap_nil, List.append_nil, List.append_assoc, ← hhelp,
    ← htype]

theorem handleMetrics_eq (monitor : Option SystemMetrics) (manager : Option (List ChannelStatus)) :
    handleMetrics monitor manager =
      Exposition.text id
        (((metricEntries monitor manager).map Entry.block).flatMap Block.lines) := by
  rw [handleMetrics, Exposition.text, List.flatMap_assoc, List.flatMap_map]
  exact List.flatMap_congr fun e _ => (text_block e).symm

/-! ### Names -/

def Entry.name (e : Entry) : List Char := e.metric.name.toList

/-- The names where there is one disk, one channel and a GPU. -/
def everyName : List (List Char) :=
  (metricEntries (some { disks := [{ path := [] }], gpuAvailable := true })
    (some [{ id := 0 }])).map Entry.name

theorem nodup_everyName : everyName.Nodup := by
  simp only [everyName, metricEntries, systemEntries, diskEntries, gpuEntries, statusEntries,
    channelEntries, gauge, counter, Entry.name, Option.elim_some, List.flatMap_cons,
    List.flatMap_nil, List.append_nil, List.map_cons, List.map_nil, List.cons_append,
    List.nil_append, if_true]
  repeat rw [String.toList_ofList]
  decide +kernel

/-- A list with at most one element gives what one element gives, or nothing. -/
theorem sublist_flatMap {α : Type*} {as : List α} {f : α → List Entry} {names : List (List Char)}
    (h : as.length ≤ 1) (hf : ∀ a, (f a).map Entry.name = names) :
    ((as.flatMap f).map Entry.name).Sublist names := by
  match as, h with
  | [], _ => exact List.nil_sublist _
  | [a], _ =>
      rw [List.flatMap_singleton, hf]

theorem name_diskEntries (d d' : DiskInfo) :
    (diskEntries d).map Entry.name = (diskEntries d').map Entry.name := by
  simp only [diskEntries, List.map_cons, List.map_nil, Entry.name]

theorem name_channelEntries (s s' : ChannelStatus) :
    (channelEntries s).map Entry.name = (channelEntries s').map Entry.name := by
  simp only [channelEntries, List.map_cons, List.map_nil, Entry.name]

theorem name_gpuEntries (m m' : SystemMetrics) :
    (gpuEntries m).map Entry.name = (gpuEntries m').map Entry.name := by
  simp only [gpuEntries, List.map_cons, List.map_nil, Entry.name]

theorem sublist_systemEntries {m : SystemMetrics} (h : m.disks.length ≤ 1) :
    ((systemEntries m).map Entry.name).Sublist
      ((systemEntries { disks := [{ path := [] }], gpuAvailable := true }).map Entry.name) := by
  have hgpu : ((if m.gpuAvailable then gpuEntries m else []).map Entry.name).Sublist
      ((gpuEntries { disks := [{ path := [] }], gpuAvailable := true }).map Entry.name) := by
    split
    · rw [name_gpuEntries]
    · exact List.nil_sublist _
  have hdisks := sublist_flatMap h fun d => name_diskEntries d { path := [] }
  simp only [systemEntries, List.map_append, List.flatMap_singleton, if_true]
  refine List.Sublist.append ?_ (hdisks.append hgpu)
  simp only [List.map_cons, List.map_nil, Entry.name]
  exact List.Sublist.refl _

theorem sublist_statusEntries {statuses : List ChannelStatus} (h : statuses.length ≤ 1) :
    ((statusEntries statuses).map Entry.name).Sublist
      ((statusEntries [{ id := 0 }]).map Entry.name) := by
  have hchannels := sublist_flatMap h fun s => name_channelEntries s { id := 0 }
  simp only [statusEntries, List.map_append, List.flatMap_singleton]
  refine List.Sublist.append ?_ hchannels
  simp only [List.map_cons, List.map_nil, Entry.name]
  exact List.Sublist.refl _

/-- Two of a kind bring the same names. -/
theorem length_le_one_of_nodup {α : Type*} {as : List α} {f : α → List Entry} (name : List Char)
    (h : ((as.flatMap f).map Entry.name).Nodup) (hf : ∀ a, name ∈ (f a).map Entry.name) :
    as.length ≤ 1 := by
  rw [List.map_flatMap, List.nodup_flatMap] at h
  match as, h with
  | [], _ => exact Nat.zero_le _
  | [_], _ => exact le_rfl
  | a :: b :: _, h =>
      exact absurd (hf b) (List.disjoint_left.mp (List.rel_of_pairwise_cons h.2 List.mem_cons_self)
        (hf a))

section Page
variable {monitor : Option SystemMetrics} {manager : Option (List ChannelStatus)}

/-- **No name is there twice exactly where there is at most one disk and one channel.** -/
theorem nodup_names_iff :
    ((metricEntries monitor manager).map Entry.name).Nodup ↔
      (disksOf monitor).length ≤ 1 ∧ (statusesOf manager).length ≤ 1 := by
  constructor
  · intro h
    rw [metricEntries, List.map_append, List.nodup_append] at h
    obtain ⟨hsystem, hstatus, -⟩ := h
    constructor
    · cases monitor with
      | none => exact Nat.zero_le _
      | some m =>
          have hsub : (m.disks.flatMap diskEntries).Sublist (systemEntries m) :=
            (List.sublist_append_left _ _).trans (List.sublist_append_right _ _)
          exact length_le_one_of_nodup "loong_disk_usage_percent".toList
            (hsystem.sublist (hsub.map _)) fun _ => by simp [diskEntries, Entry.name, gauge]
    · cases manager with
      | none => exact Nat.zero_le _
      | some statuses =>
          have hsub : (statuses.flatMap channelEntries).Sublist (statusEntries statuses) :=
            List.sublist_append_right _ _
          exact length_le_one_of_nodup "loong_channel_fps_in".toList
            (hstatus.sublist (hsub.map _)) fun _ => by simp [channelEntries, Entry.name, gauge]
  · rintro ⟨hdisks, hstatuses⟩
    refine nodup_everyName.sublist ?_
    rw [metricEntries, List.map_append, everyName, metricEntries, List.map_append]
    refine List.Sublist.append ?_ ?_
    · cases monitor with
      | none => exact List.nil_sublist _
      | some m => exact sublist_systemEntries hdisks
    · cases manager with
      | none => exact List.nil_sublist _
      | some statuses => exact sublist_statusEntries hstatuses

/-! ### The whole page -/

/-- Only the last label of a metric is a text from outside. -/
theorem clean_front (e : Entry) : ∀ label ∈ e.labels.pairs.dropLast, Clean label.2 := by
  cases e.labels with
  | none => exact fun _ h => absurd h List.not_mem_nil
  | disk path => exact fun _ h => absurd h List.not_mem_nil
  | channel id name =>
      intro label h
      obtain rfl : label = ("channel_id".toList, decimal id) := List.mem_singleton.mp h
      exact clean_decimal id

/-- The texts from outside that are on the page. -/
theorem clean_labels_iff :
    (∀ e ∈ metricEntries monitor manager, ∀ label ∈ e.labels.pairs, Clean label.2) ↔
      (∀ d ∈ disksOf monitor, Clean d.path) ∧ ∀ s ∈ statusesOf manager, Clean s.name.toList := by
  have hsystem (m : SystemMetrics) :
      (∀ e ∈ systemEntries m, ∀ label ∈ e.labels.pairs, Clean label.2) ↔
        ∀ d ∈ m.disks, Clean d.path := by
    have hgpu : ∀ e ∈ (if m.gpuAvailable then gpuEntries m else []),
        ∀ label ∈ e.labels.pairs, Clean label.2 := by
      split <;> simp [gpuEntries, Labels.pairs]
    simp only [systemEntries, List.forall_mem_append, List.forall_mem_flatMap, diskEntries,
      List.forall_mem_cons, Labels.pairs, List.not_mem_nil, false_implies, implies_true, and_true,
      true_and, and_self]
    exact and_iff_left hgpu
  have hstatus (statuses : List ChannelStatus) :
      (∀ e ∈ statusEntries statuses, ∀ label ∈ e.labels.pairs, Clean label.2) ↔
        ∀ s ∈ statuses, Clean s.name.toList := by
    simp only [statusEntries, List.forall_mem_append, List.forall_mem_flatMap, channelEntries,
      List.forall_mem_cons, Labels.pairs, clean_decimal, List.not_mem_nil, false_implies,
      implies_true, and_true, true_and, and_self]
  rw [metricEntries, List.forall_mem_append]
  refine and_congr ?_ ?_
  · cases monitor with
    | none => simp [disksOf]
    | some m => exact hsystem m
  · cases manager with
    | none => simp [statusesOf]
    | some statuses => exact hstatus statuses

/-- The page is right exactly where no name is there twice and nothing has to be escaped. -/
theorem pageRight_iff_names :
    PageRight monitor manager ↔ ((metricEntries monitor manager).map Entry.name).Nodup ∧
      ∀ e ∈ metricEntries monitor manager, ∀ label ∈ e.labels.pairs, Clean label.2 := by
  have hproper : ∀ block ∈ (metricEntries monitor manager).map Entry.block, block.Proper :=
    List.forall_mem_map.mpr fun e he => proper_block (proper_metricEntries monitor manager e he)
  have hfront : ∀ block ∈ (metricEntries monitor manager).map Entry.block,
      ∀ label ∈ block.sample.labels.dropLast, Clean label.2 :=
    List.forall_mem_map.mpr fun e _ => clean_front e
  have hreads := Exposition.reads_blocks_iff hproper hfront
  rw [List.map_map, List.map_map, ← handleMetrics_eq, List.forall_mem_map] at hreads
  exact hreads

/-- **When the page is right**: where there is at most one disk and one channel, and no backslash,
quotation mark or newline in the path and the name. -/
theorem pageRight_iff :
    PageRight monitor manager ↔
      ((disksOf monitor).length ≤ 1 ∧ (statusesOf manager).length ≤ 1) ∧
        (∀ d ∈ disksOf monitor, Clean d.path) ∧ ∀ s ∈ statusesOf manager, Clean s.name.toList :=
  pageRight_iff_names.trans (and_congr nodup_names_iff clean_labels_iff)

end Page

/-- With two channels each of the five metrics is announced twice. -/
theorem pageRight_refuted :
    ¬ PageRight none
      (some [{ id := 0, name := "Front" }, { id := 1, name := "Yard" }]) := by
  intro h
  exact absurd (nodup_names_iff.mp (pageRight_iff_names.mp h).1).2 (by decide)

end LoongNvr.Network
