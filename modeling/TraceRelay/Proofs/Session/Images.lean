/-
  TraceRelay — the memory images of a session.

  Whether an image is registered is for the numbers and for the engine to say, and neither the
  latch nor the queue has a part in it.

  * `addImage_cases` says all that a registration does: it is turned down for its addresses,
    refused by the engine, or recorded;
  * `Registers`: the outcome of a registration, by its addresses and the engine's verdict;
  * `registered` are the arguments of a run's successful registrations.  `images_performAll`: a run
    adds these to the images;
  * `Mirrored`: the images are those that the engine has taken;
  * `images_of_run`: what holds of the images after every run.
-/
import TraceRelay.Proofs.Image
import TraceRelay.Proofs.Session.Calls

namespace TraceRelay

variable {ε φ : Type}

/-- The image that a call maps, if the engine takes it. -/
def EngineCall.mapped? : EngineCall → Option (AddressRange × Path × UInt64)
  | .addImage range _ path fileOffset (.ok ()) => some (range, path, fileOffset)
  | _ => none

namespace Session

open AddressRange (Addressable)

/-! ## One registration -/

section
variable [DecodeEngine ε] (s : Session ε) (path : Path) (loadAddress fileOffset size : UInt64)

/-- The question whether an engine takes an image, with its answer. -/
abbrev asking : Step ε (Except Status Unit) :=
  DecodeEngine.addImage ⟨loadAddress, loadAddress + (size - 1)⟩ .any path fileOffset s.engine

/-- **All that a registration does.** -/
theorem addImage_cases :
    (¬ Addressable loadAddress size ∧ s.addImage path loadAddress fileOffset size =
      ⟨.error (.imageRejected path .invalidParam), s, #[]⟩) ∨
    (∃ status, Addressable loadAddress size ∧
      (s.asking path loadAddress fileOffset size).result = .error status ∧
      s.addImage path loadAddress fileOffset size =
        ⟨.error (.imageRejected path status),
          { s with engine := (s.asking path loadAddress fileOffset size).state },
          (s.asking path loadAddress fileOffset size).log⟩) ∨
    ∃ image, Addressable loadAddress size ∧
      (s.asking path loadAddress fileOffset size).result = .ok () ∧
      image.arguments = (path, loadAddress, fileOffset, size) ∧
      s.addImage path loadAddress fileOffset size =
        ⟨.ok (), { s with
          engine := (s.asking path loadAddress fileOffset size).state
          images := s.images.push image },
          (s.asking path loadAddress fileOffset size).log ++
            #[.imageRegistered path ⟨loadAddress, loadAddress + (size - 1)⟩]⟩ := by
  cases hi : Image.ofFile? path loadAddress fileOffset size with
  | none =>
    refine Or.inl ⟨?_, by simp only [addImage, hi]⟩
    intro ha
    have hsome : (Image.ofFile? path loadAddress fileOffset size).isSome = true :=
      Image.isSome_ofFile?_iff.2 ha
    rw [hi] at hsome
    cases hsome
  | some image =>
    have ha : Addressable loadAddress size := Image.isSome_ofFile?_iff.1 (by rw [hi]; rfl)
    have hargs := Image.arguments_of_ofFile? hi
    have hrange : image.range = ⟨loadAddress, loadAddress + (size - 1)⟩ :=
      congrArg Prod.fst (Image.mapping_of_arguments hargs)
    cases hv : (s.asking path loadAddress fileOffset size).result with
    | error status =>
      refine Or.inr (Or.inl ⟨status, ha, rfl, ?_⟩)
      simp only [addImage, hi, hrange, hv]
    | ok =>
      refine Or.inr (Or.inr ⟨image, ha, rfl, hargs, ?_⟩)
      simp only [addImage, hi, hrange, hv]

/-- How the registration `x` of an image in `s` ends. -/
structure Registers (x : Step (Session ε) (Except SessionError Unit)) : Prop where
  /-- Neither the configuration nor the queue, the latch or the phase changes. -/
  others : x.state = { s with engine := x.state.engine, images := x.state.images }
  ok_iff : x.result = .ok () ↔
    Addressable loadAddress size ∧ (s.asking path loadAddress fileOffset size).result = .ok ()
  added : x.result = .ok () →
    ∃ image, image.arguments = (path, loadAddress, fileOffset, size) ∧
      x.state.images = s.images.push image
  /-- Without addresses the engine is not asked. -/
  misfit : ¬ Addressable loadAddress size →
    x = ⟨.error (.imageRejected path .invalidParam), s, #[]⟩
  refused : Addressable loadAddress size →
    ∀ status, (s.asking path loadAddress fileOffset size).result = .error status →
      x.result = .error (.imageRejected path status) ∧ x.state.images = s.images

theorem registers_addImage :
    s.Registers path loadAddress fileOffset size
      (s.addImage path loadAddress fileOffset size) := by
  rcases s.addImage_cases path loadAddress fileOffset size with
    ⟨ha, hx⟩ | ⟨status, ha, hv, hx⟩ | ⟨image, ha, hv, hargs, hx⟩ <;> rw [hx]
  · exact ⟨rfl, iff_of_false nofun fun h => ha h.1, nofun, fun _ => rfl,
      fun h => absurd h ha⟩
  · refine ⟨rfl, iff_of_false nofun ?_, nofun, fun hn => absurd ha hn, ?_⟩
    · rw [hv]
      rintro ⟨-, ⟨⟩⟩
    · rintro - status' hv'
      obtain rfl := Except.error.inj (hv.symm.trans hv')
      exact ⟨rfl, rfl⟩
  · refine ⟨rfl, iff_of_true rfl ⟨ha, hv⟩, fun _ => ⟨image, hargs, rfl⟩,
      fun hn => absurd ha hn, ?_⟩
    rintro - status' hv'
    cases hv.symm.trans hv'

end

/-! ## Registrations of a run -/

/-- The arguments of a registration, if it succeeds. -/
def Op.registered? : Op → Answer → Option (Path × UInt64 × UInt64 × UInt64)
  | .addImage path loadAddress fileOffset size, .imageAdded (.ok ()) =>
    some (path, loadAddress, fileOffset, size)
  | _, _ => none

/-- The arguments of the successful registrations among operations with their answers. -/
def registered (ops : List Op) (answers : List Answer) :
    List (Path × UInt64 × UInt64 × UInt64) :=
  (ops.zip answers).filterMap fun (op, answer) => op.registered? answer

section
variable [DecodeEngine ε]

theorem images_create {mem : Allocator} {tree : SourceFormat → φ → Step φ (Except Status ε)}
    {config : Config} {factory : φ} {s : Session ε}
    (h : (create mem tree config factory).result = .ok s) : s.images = #[] := by
  obtain ⟨queue, engine, -, -, rfl⟩ := create_eq_ok h
  rcases configure_state (⟨config, engine, #[], queue, {}, .created⟩ : Session ε) with
    ⟨-, hc⟩ | ⟨status, -, hc⟩ <;> rw [hc]

theorem images_operate (mem : Allocator) (s : Session ε) (dop : DataOp) (index : UInt64)
    (data : ByteArray) (fatal : Status → SessionError) :
    (s.operate mem dop index data fatal).state.images = s.images := by
  cases hl : s.latch.first with
  | some e => rw [operate_of_isSet hl]
  | none => rw [(operate_of_clear hl).1]

/-- **An operation adds the image that it registers**, if it registers one. -/
theorem images_perform (mem : Allocator) (op : Op) (s : Session ε) :
    (s.perform mem op).state.images.toList.map Image.arguments =
      s.images.toList.map Image.arguments ++
        (op.registered? (s.perform mem op).result).toList := by
  cases op with
  | feed | flush =>
    rw [perform_of_dataOp rfl, Step.map_state, images_operate]
    exact (List.append_nil _).symm
  | nextEvent | drain => exact (List.append_nil _).symm
  | addImage path loadAddress fileOffset size =>
    rw [perform, Step.map_state, Step.map_result]
    rcases s.addImage_cases path loadAddress fileOffset size with
      ⟨-, hx⟩ | ⟨status, -, -, hx⟩ | ⟨image, -, -, hargs, hx⟩ <;> rw [hx]
    · exact (List.append_nil _).symm
    · exact (List.append_nil _).symm
    · simp [Op.registered?, hargs]

/-- **A run adds the images that it registers**, in order. -/
theorem images_performAll (calls : List (Allocator × Op)) (s : Session ε) :
    (s.performAll calls).state.images.toList.map Image.arguments =
      s.images.toList.map Image.arguments ++
        registered (calls.map Prod.snd) (s.performAll calls).result := by
  induction calls generalizing s with
  | nil => exact (List.append_nil _).symm
  | cons call calls ih =>
    have hcons : registered ((call :: calls).map Prod.snd) (s.performAll (call :: calls)).result =
        (call.2.registered? (s.perform call.1 call.2).result).toList ++
          registered (calls.map Prod.snd)
            ((s.perform call.1 call.2).state.performAll calls).result := by
      simp only [registered, List.map_cons, Step.chain_cons_result, List.zip_cons_cons,
        List.filterMap_cons]
      cases call.2.registered? (s.perform call.1 call.2).result <;> rfl
    rw [Step.chain_cons_state, ih, images_perform, hcons, List.append_assoc]

end

/-! ## Images of the engine -/

/-- The images are those that the engine has taken. -/
def Mirrored (s : Session (Recorded ε)) : Prop :=
  s.images.toList.map Image.mapping = s.engine.calls.toList.filterMap EngineCall.mapped?

variable [DecodeEngine ε] {s : Session (Recorded ε)}

theorem Mirrored.create {mem : Allocator} {tree : SourceFormat → φ → Step φ (Except Status ε)}
    {config : Config} {factory : φ}
    (h : (Session.create mem (Recorded.createTree tree) config ⟨factory, #[]⟩).result = .ok s) :
    s.Mirrored := by
  obtain ⟨answer, hc, -⟩ := create_calls h
  rw [Mirrored, images_create h, hc]
  rfl

/-- **The step.** -/
theorem Mirrored.perform (h : s.Mirrored) (mem : Allocator) (op : Op) :
    (s.perform mem op).state.Mirrored := by
  rw [Mirrored] at h ⊢
  cases hd : op.dataOp? with
  | some x =>
    obtain ⟨dop, index, data⟩ := x
    rw [perform_of_dataOp hd, Step.map_state, images_operate, h]
    cases hl : s.latch.first with
    | some e => rw [operate_of_isSet hl]
    | none => simp [calls_operate hl, record, EngineCall.mapped?]
  | none =>
    cases op with
    | feed | flush => cases hd
    | nextEvent | drain => exact h
    | addImage path loadAddress fileOffset size =>
      rw [Session.perform, Step.map_state]
      -- the recorder keeps the question with its answer
      have hcalls : (s.asking path loadAddress fileOffset size).state.calls =
          s.engine.calls.push (.addImage ⟨loadAddress, loadAddress + (size - 1)⟩ .any path
            fileOffset (s.asking path loadAddress fileOffset size).result) := rfl
      rcases s.addImage_cases path loadAddress fileOffset size with
        ⟨-, hx⟩ | ⟨status, -, hv, hx⟩ | ⟨image, -, hv, hargs, hx⟩ <;> rw [hx]
      · exact h
      · simp [hcalls, hv, EngineCall.mapped?, h]
      · simp [hcalls, hv, EngineCall.mapped?, h, Image.mapping_of_arguments hargs]

/-- **The images of a session are the successful registrations**, in order and with their
    arguments, and they are those that the engine has taken.  Nothing else changes them.  Whether or
    not an error is latched, a registration succeeds iff its bytes have addresses and the engine
    takes them; it fails without a trace if they have none. -/
theorem images_of_run {mem : Allocator} {tree : SourceFormat → φ → Step φ (Except Status ε)}
    {config : Config} {factory : φ}
    (h : (create mem (Recorded.createTree tree) config ⟨factory, #[]⟩).result = .ok s)
    (calls : List (Allocator × Op)) :
    let run := s.performAll calls
    let now := run.state
    now.images.toList.map Image.arguments = registered (calls.map Prod.snd) run.result ∧
    now.images.toList.map Image.mapping =
      now.engine.calls.toList.filterMap EngineCall.mapped? ∧
    (∀ mem data index, (now.feed mem data index).state.images = now.images) ∧
    (∀ mem, (now.flush mem).state.images = now.images) ∧
    now.nextEvent.2.images = now.images ∧
    (∀ n, (now.afterDrain (now.drain.take n).2).images = now.images) ∧
    ∀ path loadAddress fileOffset size,
      now.Registers path loadAddress fileOffset size
        (now.addImage path loadAddress fileOffset size) := by
  intro run now
  have hrun := images_performAll calls s
  rw [images_create h, List.map_nil, List.nil_append] at hrun
  have hmirrored : now.Mirrored :=
    Step.chain_invariant (fun call _ h => h.perform call.1 call.2) calls (.create h)
  refine ⟨hrun, hmirrored, ?_, ?_, rfl, fun n => rfl, ?_⟩
  · intro mem data index
    exact images_operate mem now .data index data _
  · intro mem
    exact images_operate mem now .flush 0 .empty _
  · intro path loadAddress fileOffset size
    exact now.registers_addImage path loadAddress fileOffset size

end Session

/-! ## An engine with a map -/

/-- An engine that has no decoder, and takes no image over another. -/
structure Atlas where
  ranges : List AddressRange := []

namespace Atlas

instance : DecodeEngine Atlas where
  createDecoder _ a := ⟨.error .fail, a, #[]⟩
  addImage range _ _ _ a :=
    if a.ranges.any fun r => r.first ≤ range.last ∧ range.first ≤ r.last then
      ⟨.error .imageOverlap, a, #[]⟩
    else ⟨.ok (), ⟨range :: a.ranges⟩, #[]⟩
  process _ _ _ a := .done ⟨⟨.ok, 0⟩, a, #[]⟩

def tree (_ : SourceFormat) (a : Atlas) : Step Atlas (Except Status Atlas) :=
  ⟨.ok a, a, #[]⟩

/-- A new session, whose decoder has been refused. -/
def session : Session (Recorded Atlas) where
  config := Playback.config
  engine := ⟨{}, #[.createTree sessionFormat (.ok ()),
    .createDecoder Playback.config.decoder (.error .fail)]⟩
  images := #[]
  queue := ⟨Array.replicate 2 none, 0, 0, 4⟩
  latch := { first := some (.decoderRefused .etmV4I .fail) }
  phase := .errored

/-- The byte 0xFF stands nowhere in a text. -/
def app : Path :=
  ⟨[0x61, 0xFF]⟩

/-- An image, one over it, one that is too large, and one of the last address, with a feed and a
    drain in between. -/
def calls : List (Allocator × Session.Op) :=
  [(.standard, .addImage app 0x400000 0 0x10000), (.standard, .feed ⟨#[0]⟩ 0),
    (.standard, .addImage app 0x40FFFF 0 0x10), (.standard, .drain 1),
    (.standard, .addImage app 0xFFFFFFFFFFFFFFFF 0 2),
    (.standard, .addImage app 0xFFFFFFFFFFFFFFFF 7 1)]

end Atlas

open Atlas in
/-- A session with an error takes two images of four. -/
theorem Session.images_of_run_atlas :
    (create .standard (Recorded.createTree tree) Playback.config ⟨{}, #[]⟩).result =
      .ok session ∧
    let now := (session.performAll calls).state
    now.latch = session.latch ∧
    now.images.toList.map Image.arguments =
      [(app, 0x400000, 0, 0x10000), (app, 0xFFFFFFFFFFFFFFFF, 7, 1)] ∧
    (now.addImage app 0xFFFFFFFFFFFFFFFF 0 2).result = .error (.imageRejected app .invalidParam) ∧
    (now.addImage app 0xFFFFFFFFFFFFFFFF 0 1).result = .error (.imageRejected app .imageOverlap) ∧
    (now.addImage app 0 0 1).result = .ok () := by
  obtain ⟨hrun, -, -, -, -, -, hadd⟩ := @images_of_run Atlas Atlas _ session .standard tree
    Playback.config {} rfl calls
  refine ⟨rfl, rfl, hrun, ?_, ?_, ?_⟩
  · exact congrArg Step.result ((hadd app 0xFFFFFFFFFFFFFFFF 0 2).misfit (by decide))
  · exact ((hadd app 0xFFFFFFFFFFFFFFFF 0 1).refused (by decide) .imageOverlap rfl).1
  · exact (hadd app 0 0 1).ok_iff.2 ⟨by decide, rfl⟩

end TraceRelay
