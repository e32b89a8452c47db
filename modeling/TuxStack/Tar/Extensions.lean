import TuxStack.Tar.Reader

/-!
# Extension headers belong to one entry

PAX `x` records and GNU `L` and `K` records describe the next member of an
archive. `next_entry` collects them in the pending fields of the reader and is
meant to leave those fields empty when it returns an entry.

`readHeaders` is what `next_entry` reads before it builds an entry: the extension
headers since the last entry, and the member's own header. `nextLoop_some` says
that a returned entry is built from the reader with these extensions recorded.
A pending GNU value survives exactly when a PAX value for the same field wins
over it, and then names a later member (`entries_stand_alone_iff`).
-/

namespace TuxStack.Tar

open Vfs Result Runs Chunks

namespace TarStreamReader

/-! ## The headers before an entry -/

/-- The extension headers up to the next member header, and that header; no
header at the end of the archive. Nothing is recorded. -/
def readHeaders : Nat → ReaderM (List Extension × Option RawHeader)
  | 0 => pure ([], none)
  | rounds + 1 => do
      let block ← readExact tarBlock
      if block.all (· = 0) then return ([], none)
      else
        let header ← parseHeader block
        match ← readHeaderExtension header with
        | some extension => do
            let rest ← readHeaders rounds
            return (extension :: rest.1, rest.2)
        | none => return ([], some header)

/-- The global PAX values after some headers. -/
def globalsOf (globals : PaxValues) (extensions : List Extension) : PaxValues :=
  extensions.foldl (fun pax e =>
    match e with
    | .globalPax values => pax.overlay values
    | _ => pax) globals

/-- The PAX values of the `x` headers, laid over `pax`. -/
def paxOf (pax : PaxValues) (extensions : List Extension) : PaxValues :=
  extensions.foldl (fun pax e =>
    match e with
    | .pax values => pax.overlay values
    | _ => pax) pax

/-- The value of the last `L` header. -/
def longNameOf (name : Option Bytes) (extensions : List Extension) : Option Bytes :=
  extensions.foldl (fun name e =>
    match e with
    | .longName value => some value
    | _ => name) name

/-- The value of the last `K` header. -/
def longLinkOf (link : Option Bytes) (extensions : List Extension) : Option Bytes :=
  extensions.foldl (fun link e =>
    match e with
    | .longLink value => some value
    | _ => link) link

theorem foldl_record : ∀ (extensions : List Extension) (r : TarStreamReader),
    extensions.foldl record r =
      { r with
        globalPax := globalsOf r.globalPax extensions
        pendingPax := paxOf r.pendingPax extensions
        pendingLongName := longNameOf r.pendingLongName extensions
        pendingLongLink := longLinkOf r.pendingLongLink extensions }
  | [], _ => rfl
  | e :: extensions, r => by
      rw [List.foldl_cons, foldl_record extensions]
      cases e <;> rfl

/-! ## Reading does not look at the extensions -/

def RecordedBy (e : Extension) (r r' : TarStreamReader) : Prop := r' = r.record e

theorem sim_onSource {α : Type} (e : Extension) (f : Policy VfsError → Source VfsError UInt8 →
    Except VfsError (α × Source VfsError UInt8)) :
    Sim (RecordedBy e) (onSource f) (onSource f) := by
  rintro r r' rfl
  have hlimits : (r.record e).limits = r.limits := by cases e <;> rfl
  unfold onSource
  rw [hlimits, record_source]
  cases f (policy r.limits) r.source with
  | error err => exact rfl
  | ok x =>
    refine ⟨rfl, ?_⟩
    cases e <;> rfl

theorem readAlike_recordedBy (e : Extension) : ReadAlike (RecordedBy e) where
  limits := by
    rintro r r' rfl
    cases e <;> rfl
  readExact _ := sim_onSource e _
  skipExact _ := sim_onSource e _

theorem sim_readHeaders (e : Extension) : ∀ rounds : Nat,
    Sim (RecordedBy e) (readHeaders rounds) (readHeaders rounds)
  | 0 => Sim.pure _
  | rounds + 1 => by
      have hR := readAlike_recordedBy e
      unfold readHeaders
      refine (hR.readExact tarBlock).bind fun block => ?_
      split
      · exact Sim.pure _
      · refine (Sim.lift (parseHeader block)).bind fun header => ?_
        refine (hR.readHeaderExtension header).bind fun extension => ?_
        cases extension with
        | none => exact Sim.pure _
        | some extension => exact (sim_readHeaders e rounds).bind fun rest => Sim.pure _

variable {r r' : TarStreamReader}

theorem readHeaders_record {e : Extension} {rounds : Nat} {out : List Extension × Option RawHeader}
    (h : readHeaders rounds (r.record e) = .ok (out, r')) :
    ∃ r₁, readHeaders rounds r = .ok (out, r₁) ∧ r' = r₁.record e := by
  have hagree := sim_readHeaders e rounds r (r.record e) rfl
  rw [h] at hagree
  cases hr : readHeaders rounds r with
  | error err =>
    rw [hr] at hagree
    exact hagree.elim
  | ok x =>
    rw [hr] at hagree
    obtain ⟨out', r₁⟩ := x
    obtain ⟨rfl, hrec⟩ := hagree
    exact ⟨r₁, rfl, hrec⟩

/-- **Where a returned entry comes from**: `next_entry` read some extension
headers and a member header, and built the entry with the extensions recorded on
top of what was pending before. -/
theorem nextLoop_some : ∀ {rounds : Nat} {r r' : TarStreamReader} {entry : TarEntry},
    nextLoop rounds r = .ok (some entry, r') →
      ∃ extensions header r₁, readHeaders rounds r = .ok ((extensions, some header), r₁) ∧
        finishEntry header (extensions.foldl record r₁) = .ok (some entry, r')
  | 0, _, _, _, h => by cases h
  | rounds + 1, r, r', entry, h => by
      obtain ⟨block, r₁, hread, ⟨-, hend⟩ | ⟨hzero, header, e, r₂, hheader, hext, hend⟩⟩ :=
        nextLoop_cases h
      · obtain ⟨hnone, -⟩ := finishArchive_ok hend
        cases hnone
      · have hround : ∀ out r₃, (match e with
            | some e => (do
                let rest ← readHeaders rounds
                return (e :: rest.1, rest.2) : ReaderM (List Extension × Option RawHeader))
            | none => return ([], some header)) r₂ = .ok (out, r₃) →
              readHeaders (rounds + 1) r = .ok (out, r₃) := by
          intro out r₃ hout
          refine run_bind_eq_ok.mpr ⟨block, r₁, hread, ?_⟩
          rw [if_neg (by simp [hzero])]
          refine run_bind_eq_ok.mpr ⟨header, r₁, by rw [hheader]; rfl, ?_⟩
          exact run_bind_eq_ok.mpr ⟨e, r₂, hext, hout⟩
        cases e with
        | none => exact ⟨[], header, r₂, hround _ _ rfl, hend⟩
        | some e =>
          obtain ⟨extensions, header', r₃', hrest, hfinish⟩ := nextLoop_some hend
          obtain ⟨r₃, hheaders, rfl⟩ := readHeaders_record hrest
          refine ⟨e :: extensions, header', r₃, hround _ _ ?_, hfinish⟩
          exact run_bind_eq_ok.mpr ⟨_, _, hheaders, rfl⟩

theorem readHeaders_ok : ∀ {rounds : Nat} {r r' : TarStreamReader}
    {out : List Extension × Option RawHeader}, readHeaders rounds r = .ok (out, r') →
      ∃ s, r' = { r with source := s }
  | 0, r, r', out, h => by
      cases h
      exact ⟨_, rfl⟩
  | rounds + 1, r, r', out, h => by
      obtain ⟨block, r₁, hread, hrest⟩ := run_bind_eq_ok.mp h
      obtain ⟨s₁, rfl, -⟩ := readExact_ok hread
      split at hrest
      · cases hrest
        exact ⟨s₁, rfl⟩
      · obtain ⟨header, r₂, hparse, hafter⟩ := run_bind_eq_ok.mp hrest
        obtain ⟨-, rfl⟩ := lift_ok hparse
        obtain ⟨e, r₃, hext, hend⟩ := run_bind_eq_ok.mp hafter
        obtain ⟨s₃, rfl, -⟩ := readHeaderExtension_ok hext
        cases e with
        | none =>
          cases hend
          exact ⟨s₃, rfl⟩
        | some e =>
          obtain ⟨rest, r₄, hheaders, hpure⟩ := run_bind_eq_ok.mp hend
          cases hpure
          obtain ⟨s₄, rfl⟩ := readHeaders_ok hheaders
          exact ⟨s₄, rfl⟩

/-! ## Runs of the reader -/

inductive Call where
  | nextEntry
  | readBodyChunk (maximum : Nat)
  | skipEntryBody
  | completeConsumedBody (originalSize : Nat)

/-- The reader a call leaves behind, `none` after an error: the callers give up. -/
def after (r : TarStreamReader) : Call → Option TarStreamReader
  | .nextEntry => (nextEntry r).toOption.map Prod.snd
  | .readBodyChunk maximum => (readBodyChunk maximum r).toOption.map Prod.snd
  | .skipEntryBody => (skipEntryBody r).toOption.map Prod.snd
  | .completeConsumedBody originalSize =>
    (completeConsumedBody originalSize r).toOption.map Prod.snd

def machine : Machine TarStreamReader Call where
  init r := ∃ stream limits, r = new stream limits
  step := after

/-- No per-file extension is pending. -/
def Drained (r : TarStreamReader) : Prop :=
  r.pendingPax = PaxValues.empty ∧ r.pendingLongName = none ∧ r.pendingLongLink = none

/-- The headers `next_entry` finds from here on. -/
def Finds (r : TarStreamReader) (extensions : List Extension) (header : RawHeader) : Prop :=
  ∃ r₁, readHeaders (r.source.left.length + 1) r = .ok ((extensions, some header), r₁)

/-- The PAX values in force for a member: the `x` headers before it over the
global ones. -/
def paxInForce (globals : PaxValues) (extensions : List Extension) : PaxValues :=
  (globalsOf globals extensions).overlay (paxOf PaxValues.empty extensions)

/-- An entry returned by `next_entry` in `r` leaves nothing pending, and it is
what its own header and the headers since the last entry say. -/
def StandsAlone (r : TarStreamReader) : Prop :=
  ∀ entry r', nextEntry r = .ok (some entry, r') → Drained r' ∧
    ∃ extensions header, Finds r extensions header ∧
      memberEntry r.limits header (paxInForce r.globalPax extensions)
        (longNameOf none extensions) (longLinkOf none extensions) = .ok entry

/-- No member has both a GNU long name (link) before it and a PAX path (link
path) in force. -/
def NoClash (r : TarStreamReader) : Prop :=
  ∀ entry r', nextEntry r = .ok (some entry, r') → ∀ extensions header, Finds r extensions header →
    ¬ ((longNameOf none extensions).isSome ∧
        (paxInForce r.globalPax extensions).path.isSome) ∧
    ¬ ((longLinkOf none extensions).isSome ∧
        (paxInForce r.globalPax extensions).linkPath.isSome)

/-- A step property that only says something about `next_entry`. -/
def AtNextEntry (P : TarStreamReader → Prop) (r : TarStreamReader) (c : Call) : Prop :=
  match c with
  | .nextEntry => P r
  | _ => True

theorem nextEntry_some {entry : TarEntry} (h : nextEntry r = .ok (some entry, r')) :
    r.archiveFinished = false ∧
      nextLoop (r.source.left.length + 1) r = .ok (some entry, r') := by
  unfold nextEntry at h
  split at h
  · cases h
  · split at h
    · cases h
    · rename_i hfinished
      exact ⟨by simpa using hfinished, h⟩

theorem Finds.unique {es es' : List Extension} {h h' : RawHeader} (hfirst : Finds r es h)
    (hsecond : Finds r es' h') : es = es' ∧ h = h' := by
  obtain ⟨r₁, hfirst⟩ := hfirst
  obtain ⟨r₂, hsecond⟩ := hsecond
  rw [hfirst] at hsecond
  cases hsecond
  exact ⟨rfl, rfl⟩

/-- An entry returned by a drained reader, and what it leaves pending. -/
theorem nextEntry_drained {entry : TarEntry} (hr : Drained r)
    (h : nextEntry r = .ok (some entry, r')) : ∃ extensions header, Finds r extensions header ∧
      memberEntry r.limits header (paxInForce r.globalPax extensions)
        (longNameOf none extensions) (longLinkOf none extensions) = .ok entry ∧
      r'.pendingPax = PaxValues.empty ∧
      r'.pendingLongName = (if (paxInForce r.globalPax extensions).path.isSome
        then longNameOf none extensions else none) ∧
      r'.pendingLongLink = (if (paxInForce r.globalPax extensions).linkPath.isSome
        then longLinkOf none extensions else none) := by
  obtain ⟨-, hloop⟩ := nextEntry_some h
  obtain ⟨extensions, header, r₁, hheaders, hfinish⟩ := nextLoop_some hloop
  obtain ⟨s, rfl⟩ := readHeaders_ok hheaders
  obtain ⟨hpax, hname, hlink⟩ := hr
  rw [foldl_record] at hfinish
  obtain ⟨entry', hentry, hend⟩ := bind_eq_ok.mp hfinish
  cases hend
  dsimp only at hentry ⊢
  rw [hpax, hname, hlink] at hentry ⊢
  exact ⟨extensions, header, ⟨_, hheaders⟩, hentry, rfl, rfl, rfl⟩

/-- **One call**: from a drained reader an entry stands alone exactly when its
headers do not clash. -/
theorem standsAlone_iff_noClash (hr : Drained r) : StandsAlone r ↔ NoClash r := by
  constructor
  · intro halone entry r' hnext extensions header hfinds
    obtain ⟨⟨-, hname, hlink⟩, -⟩ := halone entry r' hnext
    obtain ⟨es, hd, hfinds', -, -, hname', hlink'⟩ := nextEntry_drained hr hnext
    obtain ⟨rfl, rfl⟩ := hfinds.unique hfinds'
    rw [hname] at hname'
    rw [hlink] at hlink'
    constructor
    · rintro ⟨hlong, hpath⟩
      rw [if_pos hpath] at hname'
      simp [← hname'] at hlong
    · rintro ⟨hlong, hpath⟩
      rw [if_pos hpath] at hlink'
      simp [← hlink'] at hlong
  · intro hclash entry r' hnext
    obtain ⟨es, hd, hfinds, hentry, hpax, hname, hlink⟩ := nextEntry_drained hr hnext
    obtain ⟨hnoName, hnoLink⟩ := hclash entry r' hnext es hd hfinds
    refine ⟨⟨hpax, ?_, ?_⟩, es, hd, hfinds, hentry⟩
    · rw [hname]
      split
      · rename_i hpath
        simpa [hpath] using hnoName
      · rfl
    · rw [hlink]
      split
      · rename_i hpath
        simpa [hpath] using hnoLink
      · rfl

/-- Nothing is pending between two entries, or there are no further entries. -/
def BetweenEntries (r : TarStreamReader) : Prop := r.archiveFinished = true ∨ Drained r

theorem atNextEntry_iff (hr : BetweenEntries r) (c : Call) :
    AtNextEntry StandsAlone r c ↔ AtNextEntry NoClash r c := by
  cases c with
  | nextEntry =>
    rcases hr with hfinished | hdrained
    · have hnone : ∀ entry r', nextEntry r ≠ .ok (some entry, r') := by
        intro entry r' hnext
        rw [(nextEntry_some hnext).1] at hfinished
        cases hfinished
      exact iff_of_true (fun entry r' hnext => absurd hnext (hnone entry r'))
        (fun entry r' hnext => absurd hnext (hnone entry r'))
    · exact standsAlone_iff_noClash hdrained
  | readBodyChunk maximum | skipEntryBody | completeConsumedBody originalSize => exact Iff.rfl

theorem after_ok {α : Type} {m : ReaderM α} (h : (m r).toOption.map Prod.snd = some r') :
    ∃ a, m r = .ok (a, r') := by
  cases hm : m r with
  | error e => simp [hm, Except.toOption] at h
  | ok x =>
    simp only [hm, Except.toOption, Option.map_some, Option.some.injEq] at h
    exact ⟨x.1, by rw [← h]⟩

/-- The body calls leave everything but the source and the body counter alone. -/
theorem body_frame {c : Call} (hc : c ≠ .nextEntry) (h : r.after c = some r') :
    ∃ s size, r' = { r with source := s, currentSize := size } := by
  cases c with
  | nextEntry => exact absurd rfl hc
  | readBodyChunk maximum =>
    obtain ⟨chunk, h⟩ := after_ok h
    unfold readBodyChunk at h
    split at h
    · cases h
    · split at h
      · cases h
        exact ⟨_, _, rfl⟩
      · obtain ⟨⟨u, r₁⟩, hfill, hrest⟩ := bind_eq_ok.mp h
        obtain ⟨s, -, rfl⟩ := onSource_ok hfill
        dsimp only at hrest
        split at hrest
        · cases hrest
        · cases hrest
          exact ⟨_, _, rfl⟩
  | skipEntryBody =>
    obtain ⟨u, h⟩ := after_ok h
    unfold skipEntryBody at h
    split at h
    · cases h
    · obtain ⟨u₁, r₁, hbody, hpad⟩ := run_bind_eq_ok.mp h
      obtain ⟨s₁, rfl, -⟩ := skipExact_ok hbody
      obtain ⟨s₂, rfl, -⟩ := skipExact_ok hpad
      exact ⟨s₂, none, rfl⟩
  | completeConsumedBody originalSize =>
    obtain ⟨u, h⟩ := after_ok h
    unfold completeConsumedBody at h
    split at h
    · cases h
    · split at h
      · cases h
      · obtain ⟨s, rfl, -⟩ := skipExact_ok h
        exact ⟨s, none, rfl⟩

theorem betweenEntries_after (hr : BetweenEntries r) {c : Call} (hok : AtNextEntry StandsAlone r c)
    (h : r.after c = some r') : BetweenEntries r' := by
  by_cases hc : c = .nextEntry
  · subst hc
    obtain ⟨out, hnext⟩ := after_ok h
    cases out with
    | some entry => exact .inr (hok entry r' hnext).1
    | none =>
      left
      unfold nextEntry at hnext
      split at hnext
      · cases hnext
      · split at hnext
        · rename_i hfinished
          cases hnext
          exact hfinished
        · exact nextLoop_none (Nat.lt_succ_self _) hnext
  · obtain ⟨s, size, rfl⟩ := body_frame hc h
    exact hr

/-- **Extension headers belong to one entry.** Along every run of the reader, on
every stream: each returned entry leaves nothing pending and is what the headers
since the last entry say, exactly when no returned member has both a GNU long
value before it and a PAX value in force for the same field. -/
theorem entries_stand_alone_iff (stream : ArchiveByteStream) (limits : TarLimits)
    (calls : List Call) :
    machine.AllSteps (AtNextEntry StandsAlone) (new stream limits) calls ↔
      machine.AllSteps (AtNextEntry NoClash) (new stream limits) calls := by
  refine Machine.allSteps_iff_allSteps (P := BetweenEntries) (fun r c hr => atNextEntry_iff hr c)
    (fun r c r' hr hok h => ?_) (Or.inr ⟨rfl, rfl, rfl⟩)
  exact betweenEntries_after hr ((atNextEntry_iff hr c).mpr hok) h

/-- An `L` header, an `x` header with a path, and two members. -/
def clashingArchive : Bytes :=
  archive [member (ascii "LongLink") 76 (ascii "long"), member (ascii "PaxHeader") 120
    (ascii "12 path=pax\n"), member (ascii "first") 48 [], member (ascii "second") 48 []]

/-- The first member of `clashingArchive` is named by its PAX path and leaves the
long name behind, which then names the second member. -/
theorem long_name_outlives_its_entry :
    ¬ machine.AllSteps (AtNextEntry StandsAlone) (new [.ok clashingArchive] TarLimits.standard)
        [.nextEntry, .skipEntryBody, .nextEntry] ∧
      ((do
          let first ← nextEntry
          skipEntryBody
          let second ← nextEntry
          return (first.map TarEntry.rawPath, second.map TarEntry.rawPath) :
            ReaderM (Option Bytes × Option Bytes))
        (new [.ok clashingArchive] TarLimits.standard)).map Prod.fst =
          .ok (some (ascii "pax"), some (ascii "long")) := by
  have hleft : ((nextEntry (new [.ok clashingArchive] TarLimits.standard)).map fun x =>
      (x.1.isSome, x.2.pendingLongName)) = .ok (true, some (ascii "long")) := by
    decide +kernel
  refine ⟨?_, by decide +kernel⟩
  rintro ⟨halone, -⟩
  cases hnext : nextEntry (new [.ok clashingArchive] TarLimits.standard) with
  | error e =>
    rw [hnext] at hleft
    cases hleft
  | ok x =>
    obtain ⟨out, r'⟩ := x
    rw [hnext] at hleft
    simp only [Except.map, Except.ok.injEq, Prod.mk.injEq] at hleft
    obtain ⟨entry, rfl⟩ := Option.isSome_iff_exists.mp hleft.1
    obtain ⟨⟨-, hname, -⟩, -⟩ := halone entry r' hnext
    rw [hname] at hleft
    cases hleft.2

end TarStreamReader

end TuxStack.Tar
