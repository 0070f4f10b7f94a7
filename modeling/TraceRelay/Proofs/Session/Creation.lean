/-
  TraceRelay — the creation of sessions.

  Creation can fail at four points, and each is reached only if the ones before it are
  passed: the number of slots, the limit and the allocator stand between a session and
  its queue, the factory between the queue and the engine.  The engine's refusal of the decoder
  is no failure of creation but is latched.

  * `Ring.isLeast_roundedCapacity` and `Ring.size_le_roundedCapacity_iff`: the number of
    slots, and when there is none;
  * `Ring.create_of_large`, `Ring.create_of_limit_lt`, `Ring.create_of_refused`: why there is
    no store;
  * `Session.create_outcome`: the outcome for every configuration, with all calls of the engine.
-/
import Mathlib.Order.Bounds.Defs
import TraceRelay.Engine.Recorder
import TraceRelay.Proofs.Session.Run

namespace TraceRelay

/-! ## The store -/

namespace Ring

variable {α : Type} {mem : Allocator} {c limit : UInt64}

theorem isLeast_roundedCapacity (c : UInt64) :
    IsLeast {p : Nat | p.isPowerOfTwo ∧ max c.toNat 2 ≤ p} (roundedCapacity c) := by
  constructor
  · exact ⟨isPowerOfTwo_roundedCapacity c,
      Nat.max_le.2 ⟨le_roundedCapacity c, two_le_roundedCapacity c⟩⟩
  · rintro p ⟨hp, hle⟩
    obtain ⟨hc, htwo⟩ := Nat.max_le.1 hle
    exact roundedCapacity_le hp htwo hc

/-- The greatest power of two that is a 64-bit number is the 63rd. -/
theorem size_le_roundedCapacity_iff :
    UInt64.size ≤ roundedCapacity c ↔ 1 <<< 63 < max c.toNat 2 := by
  obtain ⟨⟨⟨k, hk⟩, hle⟩, hleast⟩ := isLeast_roundedCapacity c
  constructor
  · intro hsize
    refine Nat.lt_of_not_le fun hfits => ?_
    have hround : roundedCapacity c ≤ 1 <<< 63 := hleast ⟨⟨63, rfl⟩, hfits⟩
    exact absurd (Nat.le_trans hsize hround) (by decide)
  · intro hlarge
    have hlt : 2 ^ 63 < 2 ^ k := by
      rw [← hk]
      exact Nat.lt_of_lt_of_le hlarge hle
    have hk' : 64 ≤ k := (Nat.pow_lt_pow_iff_right Nat.one_lt_two).1 hlt
    rw [hk]
    exact Nat.pow_le_pow_right Nat.two_pos hk'

theorem create_of_large (h : 1 <<< 63 < max c.toNat 2) :
    (create mem c limit : Except StoreError (Ring α)) = .error (.allocationFailed c) :=
  if_pos (size_le_roundedCapacity_iff.2 h)

theorem create_of_limit_lt (hc : max c.toNat 2 ≤ 1 <<< 63)
    (hl : limit.toNat < roundedCapacity c) :
    (create mem c limit : Except StoreError (Ring α)) = .error (.limitReached limit) := by
  have hsize := mt size_le_roundedCapacity_iff.1 (Nat.not_lt.2 hc)
  simp [create, hsize, hl]

theorem create_of_refused (hl : roundedCapacity c ≤ limit.toNat)
    (hm : mem (roundedCapacity c) = false) :
    (create mem c limit : Except StoreError (Ring α)) =
      .error (.allocationFailed (.ofNat (roundedCapacity c))) := by
  have hsize : ¬ UInt64.size ≤ roundedCapacity c :=
    Nat.not_le.2 (Nat.lt_of_le_of_lt hl limit.toNat_lt_size)
  simp [create, hsize, Nat.not_lt.2 hl, hm]

end Ring

/-! ## The engine -/

variable {ε φ : Type} {tree : SourceFormat → φ → Step φ (Except Status ε)}

namespace Recorded

variable {format : SourceFormat} {factory : φ}

theorem createTree_of_error {status : Status}
    (h : (tree format factory).result = .error status) :
    createTree tree format ⟨factory, #[]⟩ = ⟨.error status,
      ⟨(tree format factory).state, #[.createTree format (.error status)]⟩,
      (tree format factory).log⟩ := by
  simp [createTree, h, Except.map]

theorem result_createTree_of_ok {engine : ε} (h : (tree format factory).result = .ok engine) :
    (createTree tree format ⟨factory, #[]⟩).result =
      .ok ⟨engine, #[.createTree format (.ok ())]⟩ := by
  simp [createTree, h, Except.map]

end Recorded

/-! ## Sessions -/

namespace Session

variable [DecodeEngine ε]

/-- **The outcome of creation.**  A queue of more than 2^63 slots fails with the number that was
    asked for, whatever the limit is; otherwise the slots are the least power of two that
    suffices, and the limit is looked at before the allocator.  In all of these cases no call is
    made.  A refused tree fails creation, with no further call; a refused decoder is latched in a
    session that is new apart from that. -/
theorem create_outcome (mem : Allocator) (tree : SourceFormat → φ → Step φ (Except Status ε))
    (config : Config) (factory : φ) :
    let made := create mem (Recorded.createTree tree) config ⟨factory, #[]⟩
    let least := max config.capacity.toNat 2
    let limit := config.limit.getD 0xFFFFFFFFFFFFFFFF
    let rooted := tree (.frameFormatted true) factory
    let decoder : DecoderConfig := ⟨config.traceId, config.arch.setup⟩
    (1 <<< 63 < least →
      made = ⟨.error (.storeFailed (.allocationFailed config.capacity)), ⟨factory, #[]⟩, #[]⟩) ∧
    (least ≤ 1 <<< 63 →
      ∃ slots, IsLeast {p : Nat | p.isPowerOfTwo ∧ least ≤ p} slots ∧
      (limit.toNat < slots →
        made = ⟨.error (.storeFailed (.limitReached limit)), ⟨factory, #[]⟩, #[]⟩) ∧
      (slots ≤ limit.toNat → mem slots = false →
        made = ⟨.error (.storeFailed (.allocationFailed (.ofNat slots))), ⟨factory, #[]⟩, #[]⟩) ∧
      (slots ≤ limit.toNat → mem slots = true →
        (∀ status, rooted.result = .error status →
          made = ⟨.error (.treeRefused status),
            ⟨rooted.state, #[.createTree (.frameFormatted true) (.error status)]⟩, rooted.log⟩) ∧
        ∀ engine, rooted.result = .ok engine →
          let asked := DecodeEngine.createDecoder decoder engine
          let new : Session (Recorded ε) :=
            { config
              engine := ⟨asked.state, #[.createTree (.frameFormatted true) (.ok ()),
                .createDecoder decoder asked.result]⟩
              images := #[]
              queue := ⟨Array.replicate slots none, 0, 0, limit⟩
              latch := { first := none, suppressed := 0 }
              phase := .configured }
          (asked.result = .ok () → made.result = .ok new) ∧
          ∀ status, asked.result = .error status →
            made.result = .ok { new with
              latch := {
                first := some (.decoderRefused config.arch.setup.decoder status), suppressed := 0 }
              phase := .errored })) := by
  intro made least limit rooted decoder
  constructor
  · intro hlarge
    exact create_of_noStore (Ring.create_of_large hlarge)
  · intro hfits
    refine ⟨_, Ring.isLeast_roundedCapacity config.capacity, ?_, ?_, ?_⟩
    · intro hl
      exact create_of_noStore (Ring.create_of_limit_lt hfits hl)
    · intro hl hm
      exact create_of_noStore (Ring.create_of_refused hl hm)
    · intro hl hm
      let queue : EventQueue :=
        ⟨Array.replicate (Ring.roundedCapacity config.capacity) none, 0, 0, limit⟩
      have hq : Ring.create mem config.capacity config.slotLimit = .ok queue :=
        Ring.create_eq_ok_iff.2 ⟨hl, hm, rfl⟩
      constructor
      · intro status ht
        exact create_of_noTree hq (Recorded.createTree_of_error ht)
      · intro engine ht asked new
        let rootedEngine : Recorded ε := ⟨engine, #[.createTree (.frameFormatted true) (.ok ())]⟩
        let s : Session (Recorded ε) := ⟨config, rootedEngine, #[], queue, {}, .created⟩
        have hmade : made.result = .ok s.configure.state :=
          create_of_tree hq (Recorded.result_createTree_of_ok ht)
        rw [hmade]
        constructor
        · intro hok
          exact congrArg Except.ok (configure_of_ok (s := s) hok)
        · intro status herr
          exact congrArg Except.ok (configure_of_error (s := s) herr)

/-- One slot more than 2^63 is too many, and the limit does not come to be looked at. -/
example : create .standard Playback.tree { capacity := 0x8000000000000001, limit := some 4 }
    Playback.five =
      ⟨.error (.storeFailed (.allocationFailed 0x8000000000000001)), Playback.five, #[]⟩ := by
  rfl

end Session

end TraceRelay
