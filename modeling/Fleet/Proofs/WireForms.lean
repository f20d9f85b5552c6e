import Fleet.Wire.Scaling
import Mathlib.Tactic.FinCases
import Mathlib.Tactic.Lemma

/-! What is written on the wire is read back: `decode?` undoes `encode` for every type that crosses
the wire, also when a record has got further fields, and when fields that hold their defaults have
been left out. -/
namespace Fleet

namespace Dict

variable {β : Type}

lemma get?_foldl_entries {l : List (Id × β)} (order : (l.map Prod.fst).Pairwise (· < ·)) (d : Dict β)
    (x : Id) : (l.foldl (fun d e => d.insert e.1 e.2) d).get? x = (lookup x l).or (d.get? x) := by
  induction l generalizing d with
  | nil => rfl
  | cons e rest ih =>
    obtain ⟨below, tail⟩ := List.pairwise_cons.1 order
    rw [List.foldl_cons, ih tail, get?_insert, lookup]
    by_cases hx : e.1 = x
    · have hnew : x ∉ rest.map Prod.fst := fun hmem => String.lt_irrefl x (hx ▸ below x hmem)
      simp [hx, lookup_eq_none_of_not_mem hnew]
    · simp [hx, Ne.symm hx]

lemma lookup_append (x : Id) (l l' : List (Id × β)) :
    lookup x (l ++ l') = (lookup x l).or (lookup x l') := by
  induction l with
  | nil => rfl
  | cons e l ih =>
    rw [List.cons_append, lookup, lookup, ih]
    split <;> rfl

lemma lookup_toList_map {α : Type} (x name : Id) (f : α → β) (o : Option α) :
    lookup x (o.toList.map fun a => (name, f a)) = if name = x then o.map f else none := by
  cases o <;> simp [lookup]

/-- A map is made of its entries. -/
@[simp] theorem ofList_entries (d : Dict β) : ofList d.entries = d := by
  refine ext_get? fun x => ?_
  rw [ofList, get?_foldl_entries d.ascending, get?_empty, Option.or_none]
  rfl

end Dict

@[simp] lemma IdSet.ofList_toList (s : IdSet) : ofList s.toList = s :=
  IdSet.ext_mem fun _ => IdSet.mem_ofList

namespace Json

variable {α : Type} {v w : Json} {name : String} {a otherwise : α} {read : Json → Option α}
  {encode : α → Json} {known : List String}

/-! ### Values -/

@[simp] lemma str?_str (s : String) : str? (str s) = some s := rfl

lemma nat?_ofNat {bound n : Nat} (h : n < bound) : nat? bound (ofNat n) = some n := by
  simp [nat?, ofNat, h]

lemma mapM_of_inverse {γ : Type} {f : α → γ} {g : γ → Option α} (h : ∀ a, g (f a) = some a)
    (l : List α) : (l.map f).mapM g = some l := by
  induction l with
  | nil => rfl
  | cons a l ih => simp [h, ih]

@[simp] lemma strings?_ofStrings (l : List String) : strings? (ofStrings l) = some l :=
  mapM_of_inverse str?_str l

lemma dict?_mapValues (h : ∀ a, read (encode a) = some a) (d : Dict α) :
    dict? read (ofDict (d.mapValues encode)) = some d := by
  have hentries : (d.entries.map fun e => (e.1, encode e.2)).mapM
      (fun field : String × Json => (read field.2).map (field.1, ·)) = some d.entries :=
    mapM_of_inverse (by simp [h]) d.entries
  simp only [dict?, ofDict, Dict.mapValues, hentries, Option.map_some, Dict.ofList_entries]

@[simp] lemma free?_ofDict (d : Dict Json) : free? (ofDict d) = some d := by
  have hentries := mapM_of_inverse (f := id) (g := some) (fun _ => rfl) d.entries
  rw [List.map_id] at hentries
  change (d.entries.mapM some).map Dict.ofList = some d
  rw [hentries, Option.map_some, Dict.ofList_entries]

lemma nullable?_ofOption {o : Option α} (hread : ∀ a ∈ o, read (encode a) = some a)
    (hnull : ∀ a, encode a ≠ null) : nullable? read (ofOption encode o) = some o := by
  cases o with
  | none => rfl
  | some a =>
    have hsome : ∀ w, w ≠ null → read w = some a → nullable? read w = some (some a) := by
      intro w hw h
      cases w with
      | null => exact absurd rfl hw
      | _ => simp [nullable?, h]
    exact hsome _ (hnull a) (hread a rfl)

/-! ### Fields -/

/-- An object with the fields of `v` that have the known names, but for those that are left out, and
with any other fields. -/
def Edited (known dropped : List String) (v w : Json) : Prop :=
  ∃ d : Dict Json, w = ofDict d ∧
    ∀ name ∈ known, d.get? name = if name ∈ dropped then none else v.field? name

/-- The object has the known fields as they were written, but for some that it may lack. -/
structure Keeps (known : List String) (mayLack : String → Prop) (written v : Json) : Prop where
  object : ∃ fields, v = obj fields
  field : ∀ name ∈ known,
    v.field? name = written.field? name ∨ mayLack name ∧ v.field? name = none

section

variable {written : Json} {mayLack : String → Prop}

lemma Keeps.record? (hk : Keeps known mayLack written v) (form : Form) (names : List String) :
    v.record? form names = some v := by
  obtain ⟨fields, rfl⟩ := hk.object
  rfl

lemma Keeps.required (hk : Keeps known mayLack written v) (hname : name ∈ known)
    (hkept : ¬ mayLack name) (hwritten : written.field? name = some w) (hread : read w = some a) :
    v.required name read = some a := by
  obtain hfield | ⟨hlack, -⟩ := hk.field name hname
  · rw [Json.required, hfield, hwritten, Option.bind_some, hread]
  · exact absurd hlack hkept

lemma Keeps.optional (hk : Keeps known mayLack written v) (hname : name ∈ known)
    (hstd : mayLack name → a = otherwise) (hwritten : written.field? name = some w)
    (hread : read w = some a) : v.optional name otherwise read = some a := by
  unfold Json.optional
  obtain hfield | ⟨hlack, hnone⟩ := hk.field name hname
  · simpa only [hfield, hwritten] using hread
  · rw [hnone, hstd hlack]

/-- A field that is left out when there is nothing to write. -/
lemma Keeps.optional_nullable {o : Option α} (hk : Keeps known mayLack written v)
    (hname : name ∈ known) (hstd : mayLack name → o = none)
    (hwritten : written.field? name = o.map encode) (hread : ∀ a ∈ o, read (encode a) = some a)
    (hnull : ∀ a, encode a ≠ null) : v.optional name none (nullable? read) = some o := by
  cases o with
  | none =>
    have habsent : v.field? name = none := by
      obtain hfield | ⟨-, hnone⟩ := hk.field name hname
      · exact hfield.trans hwritten
      · exact hnone
    rw [Json.optional, habsent]
  | some a => exact hk.optional hname hstd hwritten (nullable?_ofOption (o := some a) hread hnull)

end

/-- Reading gives `a` back from what is written for it. It does so also after fields of other names
have been added, and fields have been left out that may be. -/
structure Restores (decode? : Json → Option α) (known : List String) (mayLack : String → Prop)
    (written : Json) (a : α) : Prop where
  plain : decode? written = some a
  edited : ∀ dropped v, (∀ name ∈ dropped, mayLack name) → Edited known dropped written v →
    decode? v = some a

/-- It is enough to look at the known fields. -/
lemma Restores.of_keeps {decode? : Json → Option α} {mayLack : String → Prop} {written : Json}
    (hwritten : ∃ fields, written = obj fields)
    (h : ∀ v, Keeps known mayLack written v → decode? v = some a) :
    Restores decode? known mayLack written a := by
  refine ⟨h written ⟨hwritten, fun name _ => .inl rfl⟩, ?_⟩
  rintro dropped v hlack ⟨d, rfl, hfields⟩
  refine h _ ⟨⟨_, rfl⟩, fun name hname => ?_⟩
  by_cases hdropped : name ∈ dropped
  · exact .inr ⟨hlack name hdropped, (hfields name hname).trans (if_pos hdropped)⟩
  · exact .inl ((hfields name hname).trans (if_neg hdropped))

end Json

namespace Worker

/-- The numbers are machine words. -/
structure Fits (w : Worker) : Prop where
  launchBatch : w.launchBatch < Word.limit
  memoryUsed : w.memoryUsed < Word.limit
  memoryLimit : w.memoryLimit < Word.limit
  processing : w.processing < Word.limit

/-- The field may be left out, and it holds what it is taken for then. -/
def IsStandard (w : Worker) : String → Prop
  | "host" => w.host = ""
  | "launch_batch" => w.launchBatch = 0
  | "labels" => w.labels = ∅
  | "processing" => w.processing = 0
  | _ => False

theorem restores {w : Worker} (h : w.Fits) :
    Json.Restores decode? fieldNames w.IsStandard w.encode w := by
  refine .of_keeps ⟨_, rfl⟩ fun v hk => ?_
  have hid : v.required "id" Json.str? = some w.id := hk.required (by decide) (·) rfl rfl
  have hhost : v.optional "host" "" Json.str? = some w.host := hk.optional (by decide) (·) rfl rfl
  have hbatch : v.optional "launch_batch" 0 (Json.nat? Word.limit) = some w.launchBatch :=
    hk.optional (by decide) (·) rfl (Json.nat?_ofNat h.launchBatch)
  have hlabels : v.optional "labels" ∅ (Json.dict? Json.str?) = some w.labels :=
    hk.optional (by decide) (·) rfl (Json.dict?_mapValues Json.str?_str _)
  have hused : v.required "memory_used" (Json.nat? Word.limit) = some w.memoryUsed :=
    hk.required (by decide) (·) rfl (Json.nat?_ofNat h.memoryUsed)
  have hlimit : v.required "memory_limit" (Json.nat? Word.limit) = some w.memoryLimit :=
    hk.required (by decide) (·) rfl (Json.nat?_ofNat h.memoryLimit)
  have hprocessing : v.optional "processing" 0 (Json.nat? Word.limit) = some w.processing :=
    hk.optional (by decide) (·) rfl (Json.nat?_ofNat h.processing)
  simp [decode?, hk.record?, hid, hhost, hbatch, hlabels, hused, hlimit, hprocessing]

end Worker

/-! ### Enumerations and group keys -/

lemma Status.decode?_encode (s : Status) : decode? s.encode = some s := by cases s <;> rfl

lemma TaskState.decode?_encode (s : TaskState) : decode? s.encode = some s := by cases s <;> rfl

lemma Strategy.decode?_encode (s : Strategy) : decode? s.encode = some s := by cases s <;> rfl

lemma GroupKey.decode?_encode (k : GroupKey) : decode? k.encode = some k := by cases k <;> rfl

lemma GroupKey.encode_ne_null (k : GroupKey) : k.encode ≠ .null := by cases k <;> simp [encode]

lemma Json.ofNat_ne_null (n : Nat) : ofNat n ≠ null := by simp [ofNat]

namespace Task

/-- The length is a machine word, where there is one. -/
def Fits (t : Task) : Prop := ∀ n ∈ t.expectedMillis, n < Word.limit

/-- The field may be left out, and it holds what it is taken for then. -/
def IsStandard (t : Task) : String → Prop
  | "dependents" => t.dependents = []
  | "expected_duration_ms" => t.expectedMillis = none
  | _ => False

theorem restores {t : Task} (h : t.Fits) :
    Json.Restores decode? fieldNames t.IsStandard t.encode t := by
  refine .of_keeps ⟨_, rfl⟩ fun v hk => ?_
  have hkey : v.required "key" Json.str? = some t.key := hk.required (by decide) (·) rfl rfl
  have hstate : v.required "state" TaskState.decode? = some t.state :=
    hk.required (by decide) (·) rfl t.state.decode?_encode
  have hdependents : v.optional "dependents" [] Json.strings? = some t.dependents :=
    hk.optional (by decide) (·) rfl (Json.strings?_ofStrings _)
  have hlength : v.optional "expected_duration_ms" none (Json.nullable? (Json.nat? Word.limit)) =
      some t.expectedMillis :=
    hk.optional (by decide) (·) rfl
      (Json.nullable?_ofOption (fun n hn => Json.nat?_ofNat (h n hn)) Json.ofNat_ne_null)
  simp [decode?, hk.record?, hkey, hstate, hdependents, hlength]

end Task

namespace CloseQuery

theorem restores {q : CloseQuery} (h : q.target < Word.limit) :
    Json.Restores decode? fieldNames (fun _ => False) q.encode q := by
  refine .of_keeps ⟨_, rfl⟩ fun v hk => ?_
  have htarget : v.required "target" (Json.nat? Word.limit) = some q.target :=
    hk.required (by decide) (·) rfl (Json.nat?_ofNat h)
  have hkey : v.optional "key" none (Json.nullable? GroupKey.decode?) = some q.key :=
    hk.optional (by decide) False.elim rfl
      (Json.nullable?_ofOption (fun k _ => k.decode?_encode) GroupKey.encode_ne_null)
  have hreport : v.required "attribute" Json.str? = some q.reportBy :=
    hk.required (by decide) (·) rfl rfl
  have hextra : v.optional "extra" ∅ Json.free? = some q.extra :=
    hk.optional (by decide) False.elim rfl (Json.free?_ofDict _)
  simp [decode?, hk.record?, htarget, hkey, hreport, hextra]

end CloseQuery

namespace Retirement

theorem restores (r : Retirement) :
    Json.Restores decode? fieldNames (fun _ => False) r.encode r := by
  refine .of_keeps ⟨_, rfl⟩ fun v hk => ?_
  have hnames : v.required "names" Json.strings? = some r.names :=
    hk.required (by decide) (·) rfl (Json.strings?_ofStrings _)
  have hremove : v.required "remove" Json.bool? = some r.remove :=
    hk.required (by decide) (·) rfl rfl
  have hclose : v.required "close_workers" Json.bool? = some r.closeWorkers :=
    hk.required (by decide) (·) rfl rfl
  simp [decode?, hk.record?, hnames, hremove, hclose]

end Retirement

namespace Recommendation

/-- The fields that are looked at; what else a decision of another kind has does not count. -/
def fieldNames : Recommendation → List String
  | same => ["status"]
  | up _ => ["status", "n"]
  | down _ => ["status", "workers"]

/-- The size is a machine word, where there is one. -/
def Fits : Recommendation → Prop
  | up n => n < Word.limit
  | _ => True

lemma kind?_of_keeps {known : List String} {mayLack : String → Prop} {written v : Json}
    (hk : Json.Keeps known mayLack written v) : kind? v = v.required "status" Json.str? := by
  obtain ⟨fields, rfl⟩ := hk.object
  rfl

theorem restores {r : Recommendation} (h : r.Fits) :
    Json.Restores decode? r.fieldNames (fun _ => False) r.encode r := by
  cases r with
  | same =>
    refine .of_keeps ⟨_, rfl⟩ fun v hk => ?_
    have hstatus : v.required "status" Json.str? = some "same" :=
      hk.required (by decide) (·) rfl rfl
    simp [decode?, hk.record?, kind?_of_keeps hk, hstatus]
  | up n =>
    refine .of_keeps ⟨_, rfl⟩ fun v hk => ?_
    have hstatus : v.required "status" Json.str? = some "up" :=
      hk.required (by simp [fieldNames]) (·) rfl rfl
    have hn : v.required "n" (Json.nat? Word.limit) = some n :=
      hk.required (by simp [fieldNames]) (·) rfl (Json.nat?_ofNat h)
    simp [decode?, hk.record?, kind?_of_keeps hk, hstatus, hn]
  | down workers =>
    refine .of_keeps ⟨_, rfl⟩ fun v hk => ?_
    have hstatus : v.required "status" Json.str? = some "down" :=
      hk.required (by simp [fieldNames]) (·) rfl rfl
    have hworkers : v.required "workers" IdSet.decode? = some workers :=
      hk.required (by simp [fieldNames]) (·) rfl (by simp [IdSet.encode, IdSet.decode?])
    simp [decode?, hk.record?, kind?_of_keeps hk, hstatus, hworkers]

end Recommendation

namespace Settings

/-- The numbers are machine words. -/
structure Fits (s : Settings) : Prop where
  minimum : s.minimum < Word.limit
  maximum : ∀ n ∈ s.maximum, n < Word.limit
  waitCount : s.waitCount < Word.shortLimit

/-- The field holds what it is taken for when it is left out. -/
def IsStandard (s : Settings) : String → Prop
  | "interval" => s.interval = standard.interval
  | "minimum" => s.minimum = standard.minimum
  | "maximum" => s.maximum = standard.maximum
  | "wait_count" => s.waitCount = standard.waitCount
  | "target_duration" => s.targetDuration = standard.targetDuration
  | "reconcile_timeout" => s.reconcileTimeout = standard.reconcileTimeout
  | "strategy" => s.strategy = standard.strategy
  | "worker_key" => s.workerKey = standard.workerKey
  | "close_options" => s.closeOptions = standard.closeOptions
  | _ => False

lemma field?_encode (s : Settings) (name : String) : s.encode.field? name =
    (Dict.lookup name [("close_options", .ofDict s.closeOptions), ("interval", .str s.interval)]).or
      ((if "maximum" = name then s.maximum.map .ofNat else none).or
      ((Dict.lookup name [("minimum", .ofNat s.minimum),
        ("reconcile_timeout", .str s.reconcileTimeout), ("strategy", s.strategy.encode),
        ("target_duration", .str s.targetDuration), ("wait_count", .ofNat s.waitCount)]).or
      (if "worker_key" = name then s.workerKey.map GroupKey.encode else none))) := by
  simp only [encode, Json.field?_obj, Dict.lookup_append, Dict.lookup_toList_map, Option.or_assoc]

theorem restores {s : Settings} (h : s.Fits) :
    Json.Restores decode? fieldNames s.IsStandard s.encode s := by
  refine .of_keeps ⟨_, rfl⟩ fun v hk => ?_
  have hinterval : v.optional "interval" standard.interval Json.str? = some s.interval :=
    hk.optional (by decide) (·) (s.field?_encode _) rfl
  have hminimum : v.optional "minimum" standard.minimum (Json.nat? Word.limit) = some s.minimum :=
    hk.optional (by decide) (·) (s.field?_encode _) (Json.nat?_ofNat h.minimum)
  have hmaximum : v.optional "maximum" standard.maximum (Json.nullable? (Json.nat? Word.limit)) =
      some s.maximum :=
    hk.optional_nullable (by decide) (·) (by simp [field?_encode, Dict.lookup])
      (fun n hn => Json.nat?_ofNat (h.maximum n hn)) Json.ofNat_ne_null
  have hwait : v.optional "wait_count" standard.waitCount (Json.nat? Word.shortLimit) =
      some s.waitCount :=
    hk.optional (by decide) (·) (s.field?_encode _) (Json.nat?_ofNat h.waitCount)
  have htarget : v.optional "target_duration" standard.targetDuration Json.str? =
      some s.targetDuration :=
    hk.optional (by decide) (·) (s.field?_encode _) rfl
  have htimeout : v.optional "reconcile_timeout" standard.reconcileTimeout Json.str? =
      some s.reconcileTimeout :=
    hk.optional (by decide) (·) (s.field?_encode _) rfl
  have hstrategy : v.optional "strategy" standard.strategy (Strategy.decodeIn? .wire) =
      some s.strategy :=
    hk.optional (by decide) (·) (s.field?_encode _) s.strategy.decode?_encode
  have hkey : v.optional "worker_key" standard.workerKey
      (Json.nullable? (GroupKey.decodeIn? .wire)) = some s.workerKey :=
    hk.optional_nullable (by decide) (·) (by simp [field?_encode, Dict.lookup])
      (fun k _ => k.decode?_encode) GroupKey.encode_ne_null
  have hoptions : v.optional "close_options" standard.closeOptions Json.free? =
      some s.closeOptions :=
    hk.optional (by decide) (·) (s.field?_encode _) (Json.free?_ofDict _)
  simp [decode?, decodeIn?, hk.record?, hinterval, hminimum, hmaximum, hwait, htarget, htimeout,
    hstrategy, hkey, hoptions]

end Settings

/-- What is written on the wire is read back, whatever its type. Reading `Restores` a record or a
decision also after fields of other names have been added to what was written, and a worker, a task
or settings after fields have been left out that hold what they are taken for then. -/
theorem read_back_written :
    (∀ s : Status, Status.decode? s.encode = some s) ∧
    (∀ s : TaskState, TaskState.decode? s.encode = some s) ∧
    (∀ s : Strategy, Strategy.decode? s.encode = some s) ∧
    (∀ k : GroupKey, GroupKey.decode? k.encode = some k) ∧
    (∀ w : Worker, w.Fits →
      Json.Restores Worker.decode? Worker.fieldNames w.IsStandard w.encode w) ∧
    (∀ t : Task, t.Fits → Json.Restores Task.decode? Task.fieldNames t.IsStandard t.encode t) ∧
    (∀ q : CloseQuery, q.target < Word.limit →
      Json.Restores CloseQuery.decode? CloseQuery.fieldNames (fun _ => False) q.encode q) ∧
    (∀ r : Retirement,
      Json.Restores Retirement.decode? Retirement.fieldNames (fun _ => False) r.encode r) ∧
    (∀ r : Recommendation, r.Fits →
      Json.Restores Recommendation.decode? r.fieldNames (fun _ => False) r.encode r) ∧
    ∀ s : Settings, s.Fits →
      Json.Restores Settings.decode? Settings.fieldNames s.IsStandard s.encode s :=
  ⟨Status.decode?_encode, TaskState.decode?_encode, Strategy.decode?_encode,
    GroupKey.decode?_encode, fun _ => Worker.restores, fun _ => Task.restores,
    fun _ => CloseQuery.restores, Retirement.restores, fun _ => Recommendation.restores,
    fun _ => Settings.restores⟩

/-- Settings for workers that are let go zone by zone. -/
def Settings.zonal : Settings :=
  { Settings.standard with maximum := some 8, waitCount := 5, workerKey := some (.label "zone") }

/-- What stands for its default is left out, and a field that nobody knows is added. -/
theorem read_back_written_zonal :
    Settings.zonal.Fits ∧ Settings.decode? (.ofFields [("colour", .str "red"), ("maximum", .int 8),
      ("strategy", .str "duration"), ("target_duration", .str "5s"), ("wait_count", .int 5),
      ("worker_key", .obj [("label", .str "zone")])]) = some Settings.zonal := by
  have hfits : Settings.zonal.Fits := ⟨by decide, by simp [Settings.zonal, Word.limit], by decide⟩
  obtain ⟨-, -, -, -, -, -, -, -, -, hsettings⟩ := read_back_written
  refine ⟨hfits, (hsettings Settings.zonal hfits).edited
    ["interval", "minimum", "reconcile_timeout", "close_options"] _ ?_ ⟨_, rfl, ?_⟩⟩
  · intro name h
    fin_cases h <;> rfl
  · intro name h
    fin_cases h <;> rfl

end Fleet
