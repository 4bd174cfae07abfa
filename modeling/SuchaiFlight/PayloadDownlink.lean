import SuchaiFlight.Library.CumulativeAck
import SuchaiFlight.TelemetryWindow

/-!
The download of a payload over many passes. The satellite adds samples and sends
those behind the acknowledged ones with `tm_send_all` or `tm_send_n`, some of
the frames arrive at the ground station, and `tm_set_ack` says how many samples
are there.
-/
namespace PayloadDownlink
open StorageApi RepoData RepoCommand PayloadData PayloadCalls AcknowledgedSamples FileFrames
open TelemetryFrames TelemetryTransfer TelemetryWindow Blocks SignedWord Runs CumulativeAck

/-- A frame arrives when `kept` has `true` for it. -/
inductive DownlinkEvent where
  | sample (data : List UInt8)
  | send (samples : Option UInt32) (kept : List Bool)
  | acknowledge (kSamples : UInt32)

section Run
variable {σ τ : Type} (host : Host) (S : PayloadTables σ) (R : PayloadStorage τ) (c d : Config)
  (m : PayloadMap) (schCommNode : UInt8) (link : Link) (payload destNode : UInt32)

def sendAll (s : σ) (params : Option (UInt32 × UInt32)) : Option (Int32 × List (List UInt8)) := do
  match ← tmSendAll S c m s params with
  | .error rc => return (rc, [])
  | .ok request =>
    tmSendTelFromTo host S.toPayloadStorage c m.toDataMap schCommNode link request.start.toInt
      request.stop.toInt request.payload.toNat s

def sendPackets (s : σ) : Option UInt32 → Option (Int32 × List (List UInt8))
  | none => sendAll host S c m schCommNode link s (some (payload, destNode))
  | some samples => sendFrom host S c m schCommNode link s (some (payload, destNode, samples))

def stepDownlink (nodes : σ × τ) : DownlinkEvent → Option (σ × τ)
  | .sample data => do
    let (_, s) ← datAddPayloadSample S.toPayloadStorage c m.toDataMap nodes.1 data payload.toNat
    return (s, nodes.2)
  | .send samples kept => do
    let (_, packets) ← sendPackets host S c m schCommNode link payload destNode nodes.1 samples
    let r ← receiveAll host R d m.toDataMap (arriving kept packets) nodes.2
    return (nodes.1, r)
  | .acknowledge kSamples => do
    let (_, s) ← tmSetAck S c m nodes.1 (some (payload, kSamples))
    return (s, nodes.2)

end Run

def meaning (size : Nat) : DownlinkEvent → Event (List UInt8)
  | .sample data => .store (data.take size)
  | .send samples kept => .send (samples.map UInt32.toNat) kept
  | .acknowledge kSamples => .acknowledge kSamples.toNat

/-- A sample is a whole one that can be logged, and a number of samples is
    positive and ends, counted from any of `n` samples, inside an `int`. -/
def Askable (size n : Nat) : DownlinkEvent → Prop
  | .sample data => 4 ≤ data.length ∧ size ≤ data.length
  | .send (some samples) _ => 1 ≤ samples ∧ n + samples.toNat < 2147483648
  | .send none _ | .acknowledge _ => True

def fresh : Transfer (List UInt8) := ⟨[], 0, []⟩

/-- What the satellite promises besides what it promises of its samples: the
    acknowledge variable is apart from index and samples. -/
structure AckLaws {σ : Type} (S : PayloadTables σ) (c : Config) (m : PayloadMap) (p : Nat)
    (Good : σ → Prop) (room : Nat → Prop) : Prop extends
    Lawful S.toPayloadStorage c m.toDataMap p Good room where
  set_ack : ∀ s value, Good s → ∃ rc s',
    datSetSystemVar S.toStorage c s (m.sysAck p) value = some (rc, s') ∧ Good s' ∧
    ackOf S c m s' p = some value ∧ indexOf S c m s' p = indexOf S c m s p ∧
    ∀ j, room j → sampleAt S.toPayloadStorage m.toDataMap p s' j =
      sampleAt S.toPayloadStorage m.toDataMap p s j
  index_ack : ∀ s i rc s', Good s →
    datSetSystemVar S.toStorage c s (m.sysIndex p) i = some (rc, s') →
    ackOf S c m s' p = ackOf S c m s p
  data_ack : ∀ s i data rc s', Good s →
    S.storagePayloadSetData s p i data (m.size p) = some (rc, s') →
    ackOf S c m s' p = ackOf S c m s p

/-! A node that holds samples is given more. -/

section Append
variable {σ : Type} {S : PayloadStorage σ} {c : Config} {m : DataMap} {p : Nat}
  {Good : σ → Prop} {room : Nat → Prop} {s s' : σ} {stored new : List (List UInt8)}

theorem counted_of_room (lawful : Lawful S c m p Good room) {n : Nat}
    (accepts : ∀ k < n, room k) : n < 2147483648 := by
  cases n with
  | zero => decide
  | succ n =>
    have last := lawful.room_lt n (accepts n (Nat.lt_succ_self n))
    omega

theorem holds_append (lawful : Lawful S c m p Good room) (holds : Holds S c m p s stored)
    (accepts : ∀ k < (stored ++ new).length, room k) (sizes : ∀ d ∈ new, d.length = m.size p)
    (appended : Appended S c m p Good room s stored.length new s') :
    Holds S c m p s' (stored ++ new) where
  index := by
    rw [List.length_append]
    exact appended.index
  counted := counted_of_room lawful accepts
  samples := by
    intro k bound
    rcases Nat.lt_or_ge k stored.length with before | after
    · rw [appended.others k (accepts k bound) (.inl before), holds.samples k before,
        List.getElem_append_left before]
    · have place : stored.length + (k - stored.length) = k := by omega
      rw [List.length_append] at bound
      have here := appended.stored (k - stored.length) (by omega)
      rw [place] at here
      rw [here, List.getElem_append_right after]
  sizes := by
    intro d mem
    rcases List.mem_append.mp mem with old | added
    · exact holds.sizes d old
    · exact sizes d added

end Append

section Events
variable {σ τ : Type} (host : Host) {S : PayloadTables σ} {R : PayloadStorage τ} {c d : Config}
  {m : PayloadMap} (schCommNode : UInt8) (link : Link) {payload : UInt32} (destNode : UInt32)
  {Good : σ → Prop} {Good' : τ → Prop} {room room' : Nat → Prop} {s : σ} {r : τ}
  {t : Transfer (List UInt8)}

abbrev perFrame (m : PayloadMap) (p : Nat) : Nat := comFrameMaxLen / m.size p

structure Mirrors (S : PayloadTables σ) (R : PayloadStorage τ) (c d : Config) (m : PayloadMap)
    (p : Nat) (Good : σ → Prop) (Good' : τ → Prop) (s : σ) (r : τ) (t : Transfer (List UInt8)) :
    Prop where
  good : Good s
  good' : Good' r
  satellite : Holds S.toPayloadStorage c m.toDataMap p s t.stored
  ground : Holds R d m.toDataMap p r t.received
  ack : ackOf S c m s p = some (Int32.ofNat t.acked)
  within : t.acked ≤ t.stored.length

theorem sample_keeps_ack (laws : AckLaws S c m payload.toNat Good room) (good : Good s)
    {index : Nat} (at_index : indexIs S.toPayloadStorage c m.toDataMap payload.toNat s index)
    (accepts : room index) {data : List UInt8} (whole : m.size payload.toNat ≤ data.length)
    {rc : Int32} {s' : σ}
    (run : datAddPayloadSample S.toPayloadStorage c m.toDataMap s data payload.toNat =
      some (rc, s')) :
    ackOf S c m s' payload.toNat = ackOf S c m s payload.toNat := by
  obtain ⟨ret, s₁, set, ok, good₁, -, -⟩ :=
    laws.set_data s index _ good accepts (List.length_take_of_le whole)
  have same := laws.data_ack s _ _ _ _ good set
  unfold datAddPayloadSample at run
  unfold indexIs at at_index
  split at run
  · simp only [at_index, Option.bind_eq_bind, Option.bind_some, set, ok, if_true] at run
    obtain ⟨⟨ret', s₂⟩, next, result⟩ := Option.bind_eq_some_iff.mp run
    obtain ⟨-, rfl⟩ := Prod.mk.inj (Option.some.inj result)
    exact (laws.index_ack s₁ _ _ _ good₁ next).trans same
  · cases run

theorem mirrors_sample (laws : AckLaws S c m payload.toNat Good room)
    (known : payload.toNat < m.lastSensor)
    (mirrors : Mirrors S R c d m payload.toNat Good Good' s r t) {data : List UInt8}
    (log : 4 ≤ data.length) (whole : m.size payload.toNat ≤ data.length)
    (accepts : ∀ k < t.stored.length + 1, room k) :
    ∃ s', stepDownlink host S R c d m schCommNode link payload destNode (s, r) (.sample data) =
        some (s', r) ∧
      Mirrors S R c d m payload.toNat Good Good' s' r
        { t with stored := t.stored ++ [data.take (m.size payload.toNat)] } := by
  have here := accepts t.stored.length (Nat.lt_succ_self _)
  obtain ⟨s', run, appended⟩ := datAddPayloadSample_appends laws.toLawful known mirrors.good
    mirrors.satellite.index here log whole
  refine ⟨s', by simp [stepDownlink, run], ?_⟩
  constructor
  · exact appended.good
  · exact mirrors.good'
  · refine holds_append laws.toLawful mirrors.satellite ?_ ?_ appended
    · simpa using accepts
    · intro sample mem
      rw [List.mem_singleton.mp mem]
      exact List.length_take_of_le whole
  · exact mirrors.ground
  · rw [sample_keeps_ack laws mirrors.good mirrors.satellite.index here whole run]
    exact mirrors.ack
  · exact Nat.le_trans mirrors.within (List.prefix_append _ _).length_le

theorem sendPackets_eq {link : Link} (sendable : Transferable m.toDataMap link payload.toNat)
    (mirrors : Mirrors S R c d m payload.toNat Good Good' s r t) {samples : Option UInt32}
    (askable : Askable (m.size payload.toNat) t.stored.length (.send samples [])) :
    ∃ rc, sendPackets host S c m schCommNode link payload destNode s samples =
      some (rc, (framesOf (perFrame m payload.toNat) (t.window (samples.map UInt32.toNat))).map
        fun f => packetOf host schCommNode payload.toNat f.1 f.2) := by
  have counted := mirrors.satellite.counted
  have within := mirrors.within
  cases samples with
  | none =>
    obtain ⟨rc, sent⟩ := send_frames sendable.up sendable.known sendable.filled sendable.fits
      mirrors.satellite within (Nat.le_refl _) host schCommNode
    have index : indexOf S c m s payload.toNat = some (Int32.ofNat t.stored.length) :=
      mirrors.satellite.index
    have known : ¬ m.lastSensor ≤ payload.toNat := Nat.not_le.mpr sendable.known
    have first : (Int32.ofNat t.acked).toInt = t.acked := Int32.toInt_ofNat_of_lt (by omega)
    have last : (Int32.ofNat t.stored.length).toInt = t.stored.length :=
      Int32.toInt_ofNat_of_lt counted
    have window : selected t.stored t.acked t.stored.length = t.window none := by
      simp only [selected, Transfer.window]
      exact List.take_of_length_le (by rw [List.length_drop])
    rw [window] at sent
    refine ⟨rc, ?_⟩
    simp only [sendPackets, sendAll, tmSendAll, known, if_false, index, mirrors.ack,
      Option.bind_eq_bind, Option.bind_some, Option.pure_def, first, last]
    exact sent
  | some k =>
    obtain ⟨one, small⟩ := askable
    have run := sendFrom_eq sendable mirrors.satellite mirrors.ack within one host schCommNode
      destNode
    rw [if_pos (by omega)] at run
    obtain ⟨rc, sent⟩ := send_frames sendable.up sendable.known sendable.filled sendable.fits
      mirrors.satellite (show t.acked ≤ min (t.acked + k.toNat) t.stored.length by omega)
      (Nat.min_le_right _ _) host schCommNode
    have window : selected t.stored t.acked (min (t.acked + k.toNat) t.stored.length) =
        t.window (some k.toNat) := by
      simp only [selected, Transfer.window]
      rw [List.take_eq_take_iff, List.length_drop]
      omega
    rw [window] at sent
    exact ⟨rc, run.trans sent⟩

theorem arriving_samples (spf : Nat) (kept : List Bool) (all : List (List UInt8)) :
    (arriving kept (framesOf spf all)).flatMap Prod.snd =
      (arriving kept (blocks spf all)).flatten := by
  have frames : (framesOf spf all).map Prod.snd = blocks spf all := by
    simp [framesOf, blocks]
  rw [← frames, arriving_map, List.flatMap_def]

theorem window_sizes (mirrors : Mirrors S R c d m payload.toNat Good Good' s r t)
    (limit : Option Nat) : ∀ sample ∈ t.window limit, sample.length = m.size payload.toNat := by
  intro sample mem
  cases limit with
  | none => exact mirrors.satellite.sizes sample (List.mem_of_mem_drop mem)
  | some k => exact mirrors.satellite.sizes sample (List.mem_of_mem_drop (List.mem_of_mem_take mem))

theorem receive_kept {link : Link} (lawful : Lawful R d m.toDataMap payload.toNat Good' room')
    (sendable : Sendable m.toDataMap link payload.toNat) (wide : 4 ≤ m.size payload.toNat)
    {all received : List (List UInt8)}
    (sizes : ∀ sample ∈ all, sample.length = m.size payload.toNat)
    (good : Good' r) (holds : Holds R d m.toDataMap payload.toNat r received) (kept : List Bool)
    (accepts : ∀ k < (received ++
      (arriving kept (blocks (perFrame m payload.toNat) all)).flatten).length, room' k) :
    ∃ r', receiveAll host R d m.toDataMap (arriving kept
        ((framesOf (perFrame m payload.toNat) all).map fun f =>
          packetOf host schCommNode payload.toNat f.1 f.2)) r = some r' ∧ Good' r' ∧
      Holds R d m.toDataMap payload.toNat r'
        (received ++ (arriving kept (blocks (perFrame m payload.toNat) all)).flatten) := by
  have among : ∀ f ∈ arriving kept (framesOf (perFrame m payload.toNat) all),
      f ∈ framesOf (perFrame m payload.toNat) all := (arriving_sublist kept _).subset
  have loads := (loadsInside_iff (n := all.length) sendable.filled).mpr (.inl wide)
  have sound : ∀ f ∈ arriving kept (framesOf (perFrame m payload.toNat) all),
      f.2.length * m.size payload.toNat ≤ comFrameMaxLen ∧ f.2.length ≤ comFrameMaxLen ∧
        LoadsInside (m.size payload.toNat) f.2.length := by
    intro f mem
    obtain ⟨fits, few⟩ := frame_fits sendable.filled (among f mem)
    exact ⟨fits, few, fun j before =>
      loads j (Nat.lt_of_lt_of_le before (framesOf_count (among f mem)))⟩
  have content : ((arriving kept (framesOf (perFrame m payload.toNat) all)).flatMap fun f =>
      cut (m.size payload.toNat) f.2.length (carried host host (packed f.2))) =
      (arriving kept (blocks (perFrame m payload.toNat) all)).flatten := by
    rw [← arriving_samples]
    apply List.flatMap_congr
    intro f mem
    rw [carried_self host (packed_whole f.2),
      cut_packed (framesOf_sizes sizes (among f mem)) (sound f mem).1]
  rw [List.length_append, ← arriving_samples] at accepts
  obtain ⟨r', run, appended⟩ := receiveAll_appends lawful (compatible_self host) sendable.known
    sendable.small schCommNode _ sound r received.length good holds.index
    fun k before => accepts _ (by omega)
  rw [content] at appended
  refine ⟨r', by rw [arriving_map]; exact run, appended.good, ?_⟩
  refine holds_append lawful holds ?_ ?_ appended
  · rwa [List.length_append, ← arriving_samples]
  · intro sample mem
    rw [← arriving_samples] at mem
    obtain ⟨f, arrived, inside⟩ := List.mem_flatMap.mp mem
    exact framesOf_sizes sizes (among f arrived) sample inside

theorem transferable {map : DataMap} {link : Link} {p : Nat} (sendable : Sendable map link p) :
    Transferable map link p := ⟨sendable.up, sendable.known, sendable.filled, sendable.fits⟩

theorem mirrors_send {link : Link} (lawful : Lawful R d m.toDataMap payload.toNat Good' room')
    (sendable : Sendable m.toDataMap link payload.toNat) (wide : 4 ≤ m.size payload.toNat)
    (mirrors : Mirrors S R c d m payload.toNat Good Good' s r t) {samples : Option UInt32}
    (askable : Askable (m.size payload.toNat) t.stored.length (.send samples []))
    (kept : List Bool)
    (accepts : ∀ k < (t.step (perFrame m payload.toNat)
      (.send (samples.map UInt32.toNat) kept)).received.length, room' k) :
    ∃ r', stepDownlink host S R c d m schCommNode link payload destNode (s, r)
        (.send samples kept) = some (s, r') ∧
      Mirrors S R c d m payload.toNat Good Good' s r' (t.step (perFrame m payload.toNat)
        (.send (samples.map UInt32.toNat) kept)) := by
  obtain ⟨rc, sent⟩ := sendPackets_eq host schCommNode destNode (transferable sendable)
    mirrors askable
  obtain ⟨r', received, good', ground⟩ := receive_kept host schCommNode lawful sendable
    wide (window_sizes mirrors _) mirrors.good' mirrors.ground kept accepts
  refine ⟨r', by simp [stepDownlink, sent, received], ?_⟩
  exact ⟨mirrors.good, good', mirrors.satellite, ground, mirrors.ack, mirrors.within⟩

theorem tmSetAck_eq (known : payload.toNat < m.lastSensor)
    (mirrors : Mirrors S R c d m payload.toNat Good Good' s r t) (k : UInt32) :
    tmSetAck S c m s (some (payload, k)) =
      if k < 1 ∨ k.toNat < t.acked then some (cmdError, s)
      else (datSetSystemVar S.toStorage c s (m.sysAck payload.toNat)
        (Int32.ofNat (min k.toNat t.stored.length))).map fun written => (cmdOk, written.2) := by
  have counted := mirrors.satellite.counted
  have within := mirrors.within
  have index : indexOf S c m s payload.toNat = some (Int32.ofNat t.stored.length) :=
    mirrors.satellite.index
  have acked : (Int32.ofNat t.acked).toUInt32.toNat = t.acked := toNat_toUInt32_ofNat (by omega)
  have stored : (Int32.ofNat t.stored.length).toUInt32.toNat = t.stored.length :=
    toNat_toUInt32_ofNat counted
  have nonneg {n : Nat} (small : n < 2147483648) : Int32.ofNat n ≠ -1 := by
    intro same
    have value := congrArg Int32.toInt same
    rw [Int32.toInt_ofNat_of_lt small] at value
    have negative : (-1 : Int32).toInt = -1 := rfl
    omega
  simp only [tmSetAck, Nat.not_le.mpr known, if_false, mirrors.ack, index, Option.bind_eq_bind,
    Option.bind_some, Option.pure_def, nonneg counted,
    nonneg (show t.acked < 2147483648 by omega), or_self]
  by_cases few : k < 1
  · rw [if_pos few, if_pos (.inl few)]
  · rw [if_neg few]
    by_cases back : k < (Int32.ofNat t.acked).toUInt32
    · have less := UInt32.lt_iff_toNat_lt.mp back
      rw [acked] at less
      rw [if_pos back, if_pos (.inr less)]
    · have more := UInt32.lt_iff_toNat_lt.not.mp back
      rw [acked] at more
      rw [if_neg back, if_neg (not_or.mpr ⟨few, more⟩)]
      have value : (if (Int32.ofNat t.stored.length).toUInt32 < k then Int32.ofNat t.stored.length
          else k.toInt32) = Int32.ofNat (min k.toNat t.stored.length) := by
        split <;> rename_i past <;> rw [UInt32.lt_iff_toNat_lt, stored] at past
        · rw [Nat.min_eq_right past.le]
        · rw [Nat.min_eq_left (Nat.not_lt.mp past), ← Int32.toInt_inj,
            toInt_toInt32_of_lt (by omega), Int32.toInt_ofNat_of_lt (by omega)]
      rw [value]
      cases datSetSystemVar S.toStorage c s (m.sysAck payload.toNat)
        (Int32.ofNat (min k.toNat t.stored.length)) <;> rfl

theorem mirrors_acknowledge (laws : AckLaws S c m payload.toNat Good room)
    (known : payload.toNat < m.lastSensor)
    (mirrors : Mirrors S R c d m payload.toNat Good Good' s r t) (k : UInt32)
    (accepts : ∀ k < t.stored.length, room k) :
    ∃ s', stepDownlink host S R c d m schCommNode link payload destNode (s, r)
        (.acknowledge k) = some (s', r) ∧
      Mirrors S R c d m payload.toNat Good Good' s' r
        (t.step (perFrame m payload.toNat) (.acknowledge k.toNat)) := by
  have run := tmSetAck_eq known mirrors k
  by_cases refused : k < 1 ∨ k.toNat < t.acked
  · rw [if_pos refused] at run
    have same : t.step (perFrame m payload.toNat) (.acknowledge k.toNat) = t := by
      simp only [Transfer.step]
      split
      · rfl
      · rename_i enough
        have none_acked : k.toNat = 0 := by
          rcases refused with few | back
          · have less := UInt32.lt_iff_toNat_lt.mp few
            rw [UInt32.toNat_one] at less
            omega
          · exact absurd back enough
        have start : t.acked = 0 := by omega
        rw [none_acked, Nat.zero_min, ← start]
    rw [same]
    exact ⟨s, by simp [stepDownlink, run], mirrors⟩
  · rw [if_neg refused] at run
    have forward : ¬ k.toNat < t.acked := (not_or.mp refused).2
    obtain ⟨rc, s', set, good, ack, index, samples⟩ := laws.set_ack s
      (Int32.ofNat (min k.toNat t.stored.length)) mirrors.good
    rw [set] at run
    refine ⟨s', by simp [stepDownlink, run], ?_⟩
    have step : t.step (perFrame m payload.toNat) (.acknowledge k.toNat) =
        { t with acked := min k.toNat t.stored.length } := if_neg forward
    rw [step]
    constructor
    · exact good
    · exact mirrors.good'
    · constructor
      · exact index.trans mirrors.satellite.index
      · exact mirrors.satellite.counted
      · intro j bound
        rw [samples j (accepts j bound)]
        exact mirrors.satellite.samples j bound
      · exact mirrors.satellite.sizes
    · exact mirrors.ground
    · exact ack
    · exact Nat.min_le_right _ _

theorem mirrors_step {link : Link} (laws : AckLaws S c m payload.toNat Good room)
    (lawful : Lawful R d m.toDataMap payload.toNat Good' room')
    (sendable : Sendable m.toDataMap link payload.toNat) (wide : 4 ≤ m.size payload.toNat)
    (mirrors : Mirrors S R c d m payload.toNat Good Good' s r t) {event : DownlinkEvent}
    (askable : Askable (m.size payload.toNat) t.stored.length event)
    (accepts : ∀ k < (t.step (perFrame m payload.toNat)
      (meaning (m.size payload.toNat) event)).stored.length, room k)
    (accepts' : ∀ k < (t.step (perFrame m payload.toNat)
      (meaning (m.size payload.toNat) event)).received.length, room' k) :
    ∃ nodes, stepDownlink host S R c d m schCommNode link payload destNode (s, r) event =
        some nodes ∧
      Mirrors S R c d m payload.toNat Good Good' nodes.1 nodes.2
        (t.step (perFrame m payload.toNat) (meaning (m.size payload.toNat) event)) := by
  cases event with
  | sample data =>
    obtain ⟨s', run, mirrors'⟩ := mirrors_sample host schCommNode link destNode laws
      sendable.known mirrors askable.1 askable.2
      (by simpa [meaning, Transfer.step] using accepts)
    exact ⟨(s', r), run, mirrors'⟩
  | send samples kept =>
    have asks : Askable (m.size payload.toNat) t.stored.length (.send samples []) := by
      cases samples with
      | none => trivial
      | some k => exact askable
    obtain ⟨r', run, mirrors'⟩ := mirrors_send host schCommNode destNode lawful sendable wide
      mirrors asks kept accepts'
    exact ⟨(s, r'), run, mirrors'⟩
  | acknowledge k =>
    obtain ⟨s', run, mirrors'⟩ := mirrors_acknowledge host schCommNode link destNode laws
      sendable.known mirrors k
      fun j before => accepts j (Nat.lt_of_lt_of_le before (stored_step t _).length_le)
    exact ⟨(s', r), run, mirrors'⟩

theorem Askable.earlier {size n n' : Nat} {event : DownlinkEvent} (fewer : n ≤ n')
    (askable : Askable size n' event) : Askable size n event := by
  cases event with
  | sample data => exact askable
  | send samples kept =>
    cases samples with
    | none => trivial
    | some k => exact ⟨askable.1, by have := askable.2; omega⟩
  | acknowledge k => trivial

def transferAfter (m : PayloadMap) (p : Nat) (t : Transfer (List UInt8))
    (events : List DownlinkEvent) : Transfer (List UInt8) :=
  t.after (perFrame m p) (events.map (meaning (m.size p)))

theorem mirrors_run {link : Link} (laws : AckLaws S c m payload.toNat Good room)
    (lawful : Lawful R d m.toDataMap payload.toNat Good' room')
    (sendable : Sendable m.toDataMap link payload.toNat) (wide : 4 ≤ m.size payload.toNat)
    (mirrors : Mirrors S R c d m payload.toNat Good Good' s r t) {events : List DownlinkEvent}
    (askable : ∀ event ∈ events, Askable (m.size payload.toNat)
      (transferAfter m payload.toNat t events).stored.length event)
    (accepts : ∀ k < (transferAfter m payload.toNat t events).stored.length, room k)
    (accepts' : ∀ k < (transferAfter m payload.toNat t events).received.length, room' k) :
    ∃ s' r', run (stepDownlink host S R c d m schCommNode link payload destNode) (s, r) events =
        some (s', r') ∧
      Mirrors S R c d m payload.toNat Good Good' s' r'
        (transferAfter m payload.toNat t events) := by
  induction events generalizing s r t with
  | nil => exact ⟨s, r, rfl, mirrors⟩
  | cons event rest ih =>
    obtain ⟨stored, received⟩ := after_grows (perFrame m payload.toNat)
      (t.step (perFrame m payload.toNat) (meaning (m.size payload.toNat) event))
      (rest.map (meaning (m.size payload.toNat)))
    have earlier : t.stored.length ≤
        (transferAfter m payload.toNat t (event :: rest)).stored.length :=
      ((stored_step t _).trans stored).length_le
    obtain ⟨⟨s₁, r₁⟩, first, mirrors₁⟩ := mirrors_step host schCommNode destNode laws lawful
      sendable wide mirrors ((askable event List.mem_cons_self).earlier earlier)
      (fun k before => accepts k (Nat.lt_of_lt_of_le before stored.length_le))
      (fun k before => accepts' k (Nat.lt_of_lt_of_le before received.length_le))
    obtain ⟨s', r', further, mirrors'⟩ := ih mirrors₁
      (fun event mem => askable event (List.mem_cons_of_mem _ mem)) accepts accepts'
    exact ⟨s', r', run_cons first further, mirrors'⟩

structure Fresh (S : PayloadTables σ) (R : PayloadStorage τ) (c d : Config) (m : PayloadMap)
    (p : Nat) (Good : σ → Prop) (Good' : τ → Prop) (s : σ) (r : τ) : Prop where
  good : Good s
  good' : Good' r
  index : indexIs S.toPayloadStorage c m.toDataMap p s 0
  index' : indexIs R d m.toDataMap p r 0
  ack : ackOf S c m s p = some 0

theorem holds_nothing {υ : Type} {T : PayloadStorage υ} {e : Config} {map : DataMap} {p : Nat}
    {u : υ} (index : indexIs T e map p u 0) : Holds T e map p u [] where
  index := index
  counted := by decide
  samples := fun k bound => absurd bound (Nat.not_lt_zero k)
  sizes := by simp

theorem Fresh.mirrors (start : Fresh S R c d m payload.toNat Good Good' s r) :
    Mirrors S R c d m payload.toNat Good Good' s r fresh where
  good := start.good
  good' := start.good'
  satellite := holds_nothing start.index
  ground := holds_nothing start.index'
  ack := start.ack
  within := Nat.le_refl 0

theorem fresh_settled : fresh.Settled := ⟨⟨List.prefix_refl _, Nat.le_refl _⟩, rfl⟩

/-- Whatever is lost, the nodes follow the transfer. The ground station has the
    first samples, each once and in their order, when only the ends of
    transmissions are lost and nothing is sent before all that has arrived is
    acknowledged. -/
theorem download_follows {link : Link} (laws : AckLaws S c m payload.toNat Good room)
    (lawful : Lawful R d m.toDataMap payload.toNat Good' room')
    (sendable : Sendable m.toDataMap link payload.toNat) (wide : 4 ≤ m.size payload.toNat)
    (start : Fresh S R c d m payload.toNat Good Good' s r) {events : List DownlinkEvent}
    (askable : ∀ event ∈ events, Askable (m.size payload.toNat)
      (transferAfter m payload.toNat fresh events).stored.length event)
    (accepts : ∀ k < (transferAfter m payload.toNat fresh events).stored.length, room k)
    (accepts' : ∀ k < (transferAfter m payload.toNat fresh events).received.length, room' k) :
    ∃ s' r', run (stepDownlink host S R c d m schCommNode link payload destNode) (s, r) events =
        some (s', r') ∧
      Holds S.toPayloadStorage c m.toDataMap payload.toNat s'
        (transferAfter m payload.toNat fresh events).stored ∧
      Holds R d m.toDataMap payload.toNat r'
        (transferAfter m payload.toNat fresh events).received ∧
      ackOf S c m s' payload.toNat =
        some (Int32.ofNat (transferAfter m payload.toNat fresh events).acked) ∧
      (fresh.AllInOrder (perFrame m payload.toNat)
          (events.map (meaning (m.size payload.toNat))) →
        (transferAfter m payload.toNat fresh events).Exact) := by
  obtain ⟨s', r', reached, mirrors⟩ := mirrors_run host schCommNode destNode laws lawful sendable
    wide start.mirrors askable accepts accepts'
  refine ⟨s', r', reached, mirrors.satellite, mirrors.ground, mirrors.ack, fun order => ?_⟩
  exact fresh_settled.toExact.after (Nat.div_pos sendable.fits sendable.filled) order

/-! Sessions to the end. -/

def commandOf : Event (List UInt8) → DownlinkEvent
  | .store sample => .sample sample
  | .send limit kept => .send (limit.map UInt32.ofNat) kept
  | .acknowledge count => .acknowledge (UInt32.ofNat count)

def sessionCommands (m : PayloadMap) (p : Nat) (t : Transfer (List UInt8))
    (losses : List (List Bool)) : List DownlinkEvent :=
  (sessions (perFrame m p) t losses).map commandOf

theorem meaning_commandOf {size n : Nat} (small : n < 2147483648) {event : Event (List UInt8)}
    (plain : (∃ kept, event = .send none kept) ∨ ∃ count ≤ n, event = .acknowledge count) :
    meaning size (commandOf event) = event ∧ ∀ length, Askable size length (commandOf event) := by
  rcases plain with ⟨kept, rfl⟩ | ⟨count, few, rfl⟩
  · exact ⟨rfl, fun _ => trivial⟩
  · have number : (UInt32.ofNat count).toNat = count := by
      rw [UInt32.toNat_ofNat']
      omega
    exact ⟨congrArg Event.acknowledge number, fun _ => trivial⟩

theorem sessionCommands_mean {p : Nat} (pos : 0 < perFrame m p) (settled : t.Settled)
    (small : t.stored.length < 2147483648) {losses : List (List Bool)}
    (tails : ∀ kept ∈ losses, TailLost kept) :
    transferAfter m p t (sessionCommands m p t losses) =
        t.after (perFrame m p) (sessions (perFrame m p) t losses) ∧
      ∀ command ∈ sessionCommands m p t losses, ∀ length, Askable (m.size p) length command := by
  have plain := sessions_events pos settled tails
  constructor
  · unfold transferAfter sessionCommands
    rw [List.map_map]
    congr 1
    refine (List.map_congr_left fun event mem => ?_).trans (List.map_id _)
    exact (meaning_commandOf small (plain event mem)).1
  · intro command mem
    obtain ⟨event, among, rfl⟩ := List.mem_map.mp mem
    exact (meaning_commandOf small (plain event among)).2

/-- After a history in order, as many sessions as there are frames left bring
    all samples to the ground station, whatever is lost behind the first frame of
    each. -/
theorem download_completes {link : Link} (laws : AckLaws S c m payload.toNat Good room)
    (lawful : Lawful R d m.toDataMap payload.toNat Good' room')
    (sendable : Sendable m.toDataMap link payload.toNat) (wide : 4 ≤ m.size payload.toNat)
    (start : Fresh S R c d m payload.toNat Good Good' s r) {events : List DownlinkEvent}
    (askable : ∀ event ∈ events, Askable (m.size payload.toNat)
      (transferAfter m payload.toNat fresh events).stored.length event)
    (order : fresh.AllInOrder (perFrame m payload.toNat)
      (events.map (meaning (m.size payload.toNat))))
    (settled : (transferAfter m payload.toNat fresh events).acked =
      (transferAfter m payload.toNat fresh events).received.length)
    (accepts : ∀ k < (transferAfter m payload.toNat fresh events).stored.length,
      room k ∧ room' k)
    {losses : List (List Bool)} (tails : ∀ kept ∈ losses, TailLost kept ∧ 0 < kept.count true)
    (enough : (transferAfter m payload.toNat fresh events).stored.length ≤
      (transferAfter m payload.toNat fresh events).acked +
        perFrame m payload.toNat * losses.length) :
    ∃ s' r', run (stepDownlink host S R c d m schCommNode link payload destNode) (s, r)
        (events ++ sessionCommands m payload.toNat (transferAfter m payload.toNat fresh events)
          losses) = some (s', r') ∧
      Holds S.toPayloadStorage c m.toDataMap payload.toNat s'
        (transferAfter m payload.toNat fresh events).stored ∧
      Holds R d m.toDataMap payload.toNat r'
        (transferAfter m payload.toNat fresh events).stored ∧
      ackOf S c m s' payload.toNat =
        some (Int32.ofNat (transferAfter m payload.toNat fresh events).stored.length) := by
  have pos : 0 < perFrame m payload.toNat := Nat.div_pos sendable.fits sendable.filled
  have exact : (transferAfter m payload.toNat fresh events).Exact :=
    fresh_settled.toExact.after pos order
  have received := exact.first.length_le
  obtain ⟨s₁, r₁, first, mirrors⟩ := mirrors_run host schCommNode destNode laws lawful sendable
    wide start.mirrors askable (fun k bound => (accepts k bound).1)
    fun k bound => (accepts k (Nat.lt_of_lt_of_le bound received)).2
  obtain ⟨-, stored, arrived, acked⟩ := sessions_complete pos ⟨exact, settled⟩ tails enough
  obtain ⟨same, asks⟩ := sessionCommands_mean pos ⟨exact, settled⟩ mirrors.satellite.counted
    fun kept mem => (tails kept mem).1
  rw [← same] at stored arrived acked
  obtain ⟨s₂, r₂, further, mirrors'⟩ := mirrors_run host schCommNode destNode laws lawful
    sendable wide mirrors (fun command mem => asks command mem _)
    (fun k bound => (accepts k (by rwa [stored] at bound)).1)
    fun k bound => (accepts k (by rwa [arrived] at bound)).2
  refine ⟨s₂, r₂, run_trans first further, ?_, ?_, ?_⟩
  · rw [← stored]
    exact mirrors'.satellite
  · rw [← arrived]
    exact mirrors'.ground
  · rw [← acked]
    exact mirrors'.ack

end Events

/-! Two nodes with the RAM back end. -/

section Ram
open RamStorage RamFlightPlan RamPayload RamSamples FileTransfer StatusVariables

variable {c : Config} {m : PayloadMap} {p : Nat}

theorem ram_ackLaws (mapped : Mapped c m.toDataMap p) (ack_lt : m.sysAck p < c.datStatusLastAddress)
    (apart : m.sysIndex p ≠ m.sysAck p) :
    AckLaws (ramPayloadTables c) c m p (fun s => ∃ status db, Working c m.toDataMap s status db)
      (HasRoom m.toDataMap p) where
  toLawful := ram_lawful mapped
  set_ack := by
    rintro s value ⟨status, db, working⟩
    have working' := working.withStatus (storeCopies c status (m.sysAck p) value.toUInt32)
    refine ⟨schStOk, _, datSetSystemVar_ready working.toReady value ack_lt, ⟨_, _, working'⟩,
      ?_, ?_, ?_⟩
    · have read := datGetSystemVar_ready working'.toReady ack_lt
      rw [vote_storeCopies_same, Int32.toInt32_toUInt32] at read
      exact read
    · have read := datGetSystemVar_ready working.toReady mapped.variable_lt
      have read' := datGetSystemVar_ready working'.toReady mapped.variable_lt
      rw [vote_storeCopies_other c status _ ack_lt mapped.variable_lt apart] at read'
      exact read'.trans read.symm
    · intro j room
      exact (sampleAt_working mapped working' room).trans
        (sampleAt_working mapped working room).symm
  index_ack := by
    rintro s i rc s' ⟨status, db, working⟩ run
    obtain ⟨-, moved⟩ :=
      datSetSystemVar_reads (ram_status c) ⟨status, working.toReady⟩ mapped.variable_lt run
    have read := moved (m.sysAck p) ack_lt
    rwa [if_neg apart.symm] at read
  data_ack := by
    rintro s i data rc s' ⟨status, db, working⟩ run
    obtain ⟨ready, same⟩ := (ram_tables c).setData s p i data _ rc s' ⟨status, working.toReady⟩ run
    have read := datGetSystemVar_eq (ram_status c) ready ack_lt
    rw [same, ← datGetSystemVar_eq (ram_status c) ⟨status, working.toReady⟩ ack_lt] at read
    exact read

theorem temp_ackLaws :
    AckLaws (ramPayloadTables simpleConfig) simpleConfig tempSamples (0 : UInt32).toNat
      (fun s => ∃ status db, Working simpleConfig tempSamples.toDataMap s status db)
      (HasRoom tempSamples.toDataMap 0) :=
  ram_ackLaws (mapped temp_schema (by decide)) (by decide) (by decide)

theorem temp_payload : Sendable tempSamples.toDataMap plainLink (0 : UInt32).toNat where
  up := plainLink_up
  known := by decide
  small := by decide
  filled := by decide
  fits := by decide

theorem temp_fresh :
    Fresh (ramPayloadTables simpleConfig) (ramPayloadStorage simpleConfig) simpleConfig simpleConfig
      tempSamples (0 : UInt32).toNat
      (fun s => ∃ status db, Working simpleConfig tempSamples.toDataMap s status db)
      (fun r => ∃ status db, Working simpleConfig tempSamples.toDataMap r status db)
      (blankStore simpleConfig tempSamples.toDataMap)
      (blankStore simpleConfig tempSamples.toDataMap) where
  good := ⟨_, _, blankStore_working _ _⟩
  good' := ⟨_, _, blankStore_working _ _⟩
  index := blankStore_index (by decide)
  index' := blankStore_index (by decide)
  ack := by
    have working := blankStore_working simpleConfig tempSamples.toDataMap
    have read := datGetSystemVar_ready working.toReady
      (show 16 < simpleConfig.datStatusLastAddress by decide)
    exact read.trans (by simp [vote])

theorem temp_room : ∀ k < 2, HasRoom tempSamples.toDataMap 0 k := by
  intro k before
  show k < schSectionsPerPayload * (schSizePerSection / 12)
  exact Nat.lt_of_lt_of_le before (by decide)

def twoPasses : List DownlinkEvent :=
  [.sample (List.replicate 12 1), .send none [true], .acknowledge 1,
    .sample (List.replicate 12 2), .send (some 5) [false], .send none [true]]

theorem two_passes_follow :
    ∃ s' r', run (stepDownlink (standardHost .little) (ramPayloadTables simpleConfig)
        (ramPayloadStorage simpleConfig) simpleConfig simpleConfig tempSamples 1 plainLink 0 10)
        (blankStore simpleConfig tempSamples.toDataMap,
          blankStore simpleConfig tempSamples.toDataMap)
        twoPasses = some (s', r') ∧
      Holds (ramPayloadStorage simpleConfig) simpleConfig tempSamples.toDataMap 0 r'
        [List.replicate 12 1, List.replicate 12 2] := by
  have askable : ∀ event ∈ twoPasses, Askable (tempSamples.size (0 : UInt32).toNat)
      (transferAfter tempSamples (0 : UInt32).toNat fresh twoPasses).stored.length event := by
    show ∀ event ∈ twoPasses, Askable 12 2 event
    simp [twoPasses, Askable]
  obtain ⟨s', r', reached, -, ground, -, -⟩ := download_follows (standardHost .little) 1 10
    temp_ackLaws (ram_lawful (mapped temp_schema (by decide))) temp_payload (by decide) temp_fresh
    askable temp_room temp_room
  exact ⟨s', r', reached, ground⟩

def twoSamples : List DownlinkEvent :=
  [.sample (List.replicate 12 1), .sample (List.replicate 12 2)]

theorem one_session_completes :
    ∃ s' r', run (stepDownlink (standardHost .little) (ramPayloadTables simpleConfig)
        (ramPayloadStorage simpleConfig) simpleConfig simpleConfig tempSamples 1 plainLink 0 10)
        (blankStore simpleConfig tempSamples.toDataMap,
          blankStore simpleConfig tempSamples.toDataMap)
        (twoSamples ++ [.send none [true, false], .acknowledge 2]) = some (s', r') ∧
      Holds (ramPayloadStorage simpleConfig) simpleConfig tempSamples.toDataMap 0 r'
        [List.replicate 12 1, List.replicate 12 2] := by
  have askable : ∀ event ∈ twoSamples, Askable (tempSamples.size (0 : UInt32).toNat)
      (transferAfter tempSamples (0 : UInt32).toNat fresh twoSamples).stored.length event := by
    show ∀ event ∈ twoSamples, Askable 12 2 event
    simp [twoSamples, Askable]
  have tails : ∀ kept ∈ [[true, false]], TailLost kept ∧ 0 < kept.count true := by decide
  obtain ⟨s', r', reached, -, ground, -⟩ := download_completes (standardHost .little) 1 10
    temp_ackLaws (ram_lawful (mapped temp_schema (by decide))) temp_payload (by decide) temp_fresh
    askable ⟨trivial, trivial, trivial⟩ rfl
    (fun k before => ⟨temp_room k before, temp_room k before⟩) tails (by decide)
  exact ⟨s', r', reached, ground⟩

end Ram

end PayloadDownlink
