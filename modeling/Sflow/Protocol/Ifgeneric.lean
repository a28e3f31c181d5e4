import Sflow.Protocol.Measured

/-!
# Sampling an interface

`sflow_protocol_leaf_ifgeneric.c`: one record with the counters of a datalink.
None of the queries behind it is looked at for its status.
-/

namespace Sflow

open C

section Records

variable (p : Platform) (addr : CrKind → FlatAddr p) (source : SflowSource)

/-- What the structure is filled with.  `ifgDatalink` is the number of the datalink in the data of
the source. -/
def sflowCounterGenericFields (ifgDatalink : UInt32) (a : LinkAnswers) (b : LinkBuffers) :
    List (List UInt8) :=
  [wordBytes p.endian (htonl p.endian ifgDatalink),
    wordBytes p.endian (htonl p.endian (UInt32.ofNat source.ssIdType)),
    hyperBytes p.endian (htonH p.endian (sflowGetLinkStat64 a b .ifspeed)),
    wordBytes p.endian (htonl p.endian (sflowGetLinkStat32 a b .linkDuplex)),
    wordBytes p.endian (htonl p.endian (sflowGetLinkStat32 a b .linkState)),
    hyperBytes p.endian (htonH p.endian (sflowGetLinkStat64 a b .rbytes64)),
    wordBytes p.endian (sflowUnkown p),
    wordBytes p.endian (htonl p.endian (sflowGetLinkStat32 a b .multircv)),
    wordBytes p.endian (htonl p.endian (sflowGetLinkStat32 a b .brdcstrcv)),
    wordBytes p.endian (sflowUnkown p),
    wordBytes p.endian (htonl p.endian (sflowGetLinkStat32 a b .ierrors)),
    wordBytes p.endian (htonl p.endian (sflowGetLinkStat32 a b .unknowns)),
    hyperBytes p.endian (htonH p.endian (sflowGetLinkStat64 a b .obytes64)),
    wordBytes p.endian (sflowUnkown p),
    wordBytes p.endian (htonl p.endian (sflowGetLinkStat32 a b .multixmt)),
    wordBytes p.endian (htonl p.endian (sflowGetLinkStat32 a b .brdcstxmt)),
    wordBytes p.endian (sflowUnkown p),
    wordBytes p.endian (htonl p.endian (sflowGetLinkStat32 a b .oerrors)),
    wordBytes p.endian (htonl p.endian 1)]

def sflowCounterGenericPack (ifgDatalink : UInt32) (a : LinkAnswers) (b : LinkBuffers) :
    LeafImage p .ifGeneric :=
  .ofFields sflowCrIfGenericT rfl
    (sflowCounterGenericFields p source ifgDatalink a b ++ [(addr .ifGeneric).toList])
    (by simp [sflowCounterGenericFields, sflowCrIfGenericT, CType.size])

def getSampleIfgeneric {R : Type} (ifgDatalink : UInt32) (a : LinkAnswers) (g : Unset) :
    Except Fault (SflowSp p R × SflowSource) :=
  let i := sflowCounterGenericPack p addr source ifgDatalink a (g.links 0)
  counterSample source [(some (i.toInput (by decide)).toPayload, .ifGeneric)]

end Records

/-! ## What is steady -/

/-- The statistics that a sample of an interface has in it. -/
def LinkStat64.generic : List LinkStat64 := [.ifspeed, .rbytes64, .obytes64]

def LinkStat32.generic : List LinkStat32 :=
  [.linkDuplex, .linkState, .multircv, .brdcstrcv, .ierrors, .unknowns, .multixmt, .brdcstxmt,
    .oerrors]

/-- A datalink answers for all of these statistics. -/
def LinkAnswers.Has (a : LinkAnswers) (stats64 : List LinkStat64) (stats32 : List LinkStat32) :
    Prop :=
  (∀ stat ∈ stats64, (a.stat64 stat).isSome) ∧ ∀ stat ∈ stats32, (a.stat32 stat).isSome

section Steady

variable {p : Platform} {addr : CrKind → FlatAddr p} {source : SflowSource}
  {ifgDatalink : UInt32} {a : LinkAnswers}

theorem steady_sflowGetLinkStat64 {stat : LinkStat64} :
    (Steady fun b : LinkBuffers => sflowGetLinkStat64 a b stat) ↔ (a.stat64 stat).isSome :=
  steady_getD fun x ↦ ⟨⟨fun _ ↦ x, fun _ ↦ 0⟩, rfl⟩

theorem steady_sflowGetLinkStat32 {stat : LinkStat32} :
    (Steady fun b : LinkBuffers => sflowGetLinkStat32 a b stat) ↔ (a.stat32 stat).isSome :=
  steady_getD fun x ↦ ⟨⟨fun _ ↦ 0, fun _ ↦ x⟩, rfl⟩

theorem steady_sflowCounterGenericFields :
    (Steady fun b => sflowCounterGenericFields p source ifgDatalink a b) ↔
      a.Has LinkStat64.generic LinkStat32.generic := by
  simp only [sflowCounterGenericFields, steady_cons, steady_word, steady_hyper,
    steady_sflowGetLinkStat64, steady_sflowGetLinkStat32, steady_const, LinkAnswers.Has,
    LinkStat64.generic, LinkStat32.generic, List.forall_mem_cons]
  simp
  tauto

end Steady

end Sflow
