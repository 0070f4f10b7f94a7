/-
  TraceRelay — trace architectures and the decoders for them.

  A session names its architecture; what the engine needs to build the decoder
  (which decoder, the core, the register values) is fixed by it.

  * `Arch.ofSelector` reads the small number by which hosts choose an
    architecture;
  * `Arch.setup` is the decoder's fixed description;
  * `DecoderRecord.ofConfig` writes a description in the flat form that hosts
    take.
-/
import TraceRelay.Named

namespace TraceRelay

/-! ## Architectures -/

/-- The trace architectures. -/
inductive Arch where
  /-- Version 3 of the embedded trace macrocell. -/
  | etmV3
  /-- Version 4 of the embedded trace macrocell. -/
  | etmV4
  /-- The embedded trace extension. -/
  | ete
deriving DecidableEq, Repr

instance : Inhabited Arch := ⟨.etmV4⟩

instance : Named Arch where
  all := [.etmV3, .etmV4, .ete]
  name
    | .etmV3 => "EtmV3"
    | .etmV4 => "EtmV4"
    | .ete => "Ete"

/-- The architecture that a selector chooses: version 4 for every number that
    chooses no other. -/
def Arch.ofSelector (n : Int32) : Arch :=
  if n = 3 then .etmV3 else if n = 5 then .ete else .etmV4

/-- The selector of an architecture. -/
def Arch.selector : Arch → Int32
  | etmV3 => 3
  | etmV4 => 4
  | ete => 5

/-! ## Decoders -/

/-- The engine's decoders. -/
inductive Decoder where
  | etmV3
  | etmV4I
  | ete
deriving DecidableEq, Repr

instance : Named Decoder where
  all := [.etmV3, .etmV4I, .ete]
  name
    | .etmV3 => "ETMV3"
    | .etmV4I => "ETMV4I"
    | .ete => "ETE"

/-- Versions of the core's architecture. -/
inductive Core where
  | v7
  | v8
deriving DecidableEq, Repr

instance : Named Core where
  all := [.v7, .v8]
  name
    | .v7 => "V7"
    | .v8 => "V8"

/-- Profiles of the core. -/
inductive Profile where
  | application
  | realTime
  | microcontroller
deriving DecidableEq, Repr

instance : Named Profile where
  all := [.application, .realTime, .microcontroller]
  name
    | .application => "CortexA"
    | .realTime => "CortexR"
    | .microcontroller => "CortexM"

/-- The register values that a decoder is built from. -/
inductive Registers where
  /-- Version 3: the identification register. -/
  | etmV3 (idr : UInt32)
  /-- Version 4 and the extension: four identification registers and the
      configuration register. -/
  | etmV4 (idr0 idr1 idr2 idr8 configr : UInt32)
deriving DecidableEq, Repr

/-- The register values in order. -/
def Registers.toList : Registers → List UInt32
  | etmV3 idr => [idr]
  | etmV4 idr0 idr1 idr2 idr8 configr => [idr0, idr1, idr2, idr8, configr]

/-- What a decoder is built from, apart from its trace source. -/
structure DecoderSetup where
  decoder : Decoder
  core : Core
  profile : Profile
  registers : Registers
deriving DecidableEq, Repr

/-- The least register values that version 4 accepts. -/
def Registers.minimal : Registers :=
  .etmV4 0x28000EA1 0x4100F403 0x00000488 0 0x000000C1

/-- The fixed description of an architecture's decoder.  The extension shares
    the registers of version 4. -/
def Arch.setup : Arch → DecoderSetup
  | etmV3 => ⟨.etmV3, .v7, .application, .etmV3 0⟩
  | etmV4 => ⟨.etmV4I, .v8, .application, .minimal⟩
  | ete => ⟨.ete, .v8, .application, .minimal⟩

/-- All that the engine needs to build one decoder. -/
structure DecoderConfig where
  traceId : UInt8
  setup : DecoderSetup
deriving DecidableEq, Repr

/-! ## Flat descriptions -/

/-- The description of a decoder in the form that hosts take. -/
structure DecoderRecord where
  decoder : String
  traceId : UInt8
  core : String
  profile : String
  registers : List UInt32
deriving DecidableEq, Repr, Inhabited

/-- The flat form of a decoder's description. -/
def DecoderRecord.ofConfig (c : DecoderConfig) : DecoderRecord where
  decoder := Named.name c.setup.decoder
  traceId := c.traceId
  core := Named.name c.setup.core
  profile := Named.name c.setup.profile
  registers := c.setup.registers.toList

end TraceRelay
