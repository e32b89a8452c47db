import TuxStack.Docker.Spool
import TuxStack.Lib.AssocList
import TuxStack.Lib.Runs

/-!
# The accounts of the spool

`crates/docker-core/src/vfs_providers/spool.rs`: what is reserved in a `ContentSpool`, by
any number of writers, leases and clones of backings at once.

A step is one update of the shared counter together with the writes around it that no
other task sees, or one file operation, which may fail. `push` stops at three awaits; a
cancelled `push` leaves its writer idle. `finish` moves the reservation into a lease before
its first await. The counter is a `u64` that `fetch_sub` wraps; `spool_accounts` says that it
never does.
-/

namespace TuxStack.Docker

open Vfs Runs Assoc

/-- `AtomicU64::fetch_sub`. -/
def fetchSub (a b : Nat) : Nat := (a + 18446744073709551616 - b) % 18446744073709551616

theorem fetchSub_of_le {a b : Nat} (h : b ≤ a) (ha : a ≤ u64Max) : fetchSub a b = a - b := by
  have hmax : a < 18446744073709551616 := Nat.lt_of_le_of_lt ha (by decide)
  unfold fetchSub
  omega

/-- Where a `push` is: the file operation it waits for. -/
inductive PushPhase where
  | idle
  | creating (chunk : Bytes)
  | moving (chunk : Bytes)
  | appending (chunk : Bytes)
deriving DecidableEq

/-- A `ContentSpoolWriter` that has not been finished. -/
structure OpenWriter where
  content : ContentSpoolWriter
  phase : PushPhase

/-- `ContentLease` with its strong count; `returned` is false while `finish` still waits
for its file operations. -/
structure ContentLease where
  bytes : Nat
  holders : Nat
  returned : Bool

/-- `SpoolInner` with everything that refers to it. -/
structure SpoolInner where
  limits : ContentSpoolLimits
  valid : limits.validate = .ok ()
  reservedBytes : Nat
  writers : AList fun _ : Nat => OpenWriter
  leases : AList fun _ : Nat => ContentLease

/-- The steps; `w` and `l` number the writers and the leases. -/
inductive SpoolStep where
  | writer (w : Nat)
  | push (w : Nat) (chunk : Bytes)
  | created (w : Nat) (ok : Bool)
  | moved (w : Nat) (ok : Bool)
  | appended (w : Nat) (written : Nat) (ok : Bool)
  | cancelPush (w : Nat)
  | finish (w l : Nat)
  | completed (l : Nat) (ok : Bool)
  | dropWriter (w : Nat)
  | memory (l : Nat) (bytes : Bytes)
  | clone (l : Nat)
  | dropBacking (l : Nat)

namespace SpoolInner

/-- `ContentSpool::reserve`: `checked_add` and the limit. -/
def reserve (s : SpoolInner) (bytes : Nat) : Except VfsError SpoolInner :=
  if s.reservedBytes + bytes ≤ u64Max ∧ s.reservedBytes + bytes ≤ s.limits.maxTotalBytes then
    .ok { s with reservedBytes := s.reservedBytes + bytes }
  else .error (.unavailable "total content spool limit exceeded")

/-- `ContentSpool::release` and the subtraction of a dropped lease. -/
def release (s : SpoolInner) (bytes : Nat) : SpoolInner :=
  { s with reservedBytes := fetchSub s.reservedBytes bytes }

/-- The checks of `push` and its reservation, with the spool and the size they leave. -/
def pushReserve (s : SpoolInner) (writer : ContentSpoolWriter) (chunk : Bytes) :
    Except VfsError (SpoolInner × Nat) :=
  let next := writer.reserved + chunk.length
  if next > u64Max then .error (.unavailable "content spool size overflow")
  else if next > s.limits.maxSingleBytes then
    .error (.unavailable "single content spool limit exceeded")
  else do
    let s ← s.reserve chunk.length
    .ok (s, next)

/-- What `push` does with the chunk it has reserved, up to its first await. -/
def pushed (limits : ContentSpoolLimits) (writer : ContentSpoolWriter) (chunk : Bytes)
    (next : Nat) : OpenWriter :=
  if writer.temporary.isNone ∧ next ≤ limits.memoryThreshold then
    ⟨{ writer with memory := writer.memory ++ chunk, reserved := next }, .idle⟩
  else if writer.temporary.isNone then ⟨{ writer with reserved := next }, .creating chunk⟩
  else ⟨{ writer with reserved := next }, .appending chunk⟩

def memoryReserve (s : SpoolInner) (bytes : Bytes) : Except VfsError SpoolInner :=
  if bytes.length > s.limits.maxSingleBytes then
    .error (.unavailable "single content spool limit exceeded")
  else s.reserve bytes.length

def setWriter (s : SpoolInner) (w : Nat) (writer : OpenWriter) : SpoolInner :=
  { s with writers := s.writers.insert w writer }

def setLease (s : SpoolInner) (l : Nat) (lease : ContentLease) : SpoolInner :=
  { s with leases := s.leases.insert l lease }

/-- The last holder of a lease is gone: `ContentLease::drop`. -/
def dropLease (s : SpoolInner) (l : Nat) (lease : ContentLease) : SpoolInner :=
  { s.release lease.bytes with leases := s.leases.erase l }

def after (s : SpoolInner) : SpoolStep → Option SpoolInner
  | .writer w =>
    if w ∈ s.writers then none else some (s.setWriter w ⟨⟨[], none, 0⟩, .idle⟩)
  | .push w chunk =>
    (s.writers.lookup w).bind fun writer =>
      if writer.phase ≠ .idle then none
      else
        match s.pushReserve writer.content chunk with
        | .error _ => some s
        | .ok (s, next) => some (s.setWriter w (pushed s.limits writer.content chunk next))
  | .created w ok =>
    (s.writers.lookup w).bind fun writer =>
      match writer.phase with
      | .creating chunk =>
        some (s.setWriter w ⟨writer.content, if ok then .moving chunk else .idle⟩)
      | _ => none
  | .moved w ok =>
    (s.writers.lookup w).bind fun writer =>
      match writer.phase with
      | .moving chunk =>
        some (s.setWriter w (if ok then
            ⟨{ writer.content with memory := [], temporary := some writer.content.memory },
              .appending chunk⟩
          else ⟨writer.content, .idle⟩))
      | _ => none
  | .appended w written ok =>
    (s.writers.lookup w).bind fun writer =>
      match writer.phase with
      | .appending chunk =>
        let chunk := if ok then chunk else chunk.take written
        some (s.setWriter w ⟨{ writer.content with
          temporary := writer.content.temporary.map fun file => file ++ chunk }, .idle⟩)
      | _ => none
  | .cancelPush w =>
    (s.writers.lookup w).bind fun writer =>
      if writer.phase = .idle then none else some (s.setWriter w { writer with phase := .idle })
  | .finish w l =>
    (s.writers.lookup w).bind fun writer =>
      if writer.phase ≠ .idle ∨ l ∈ s.leases then none
      else
        let lease : ContentLease :=
          ⟨writer.content.reserved, 1, writer.content.temporary.isNone⟩
        some { s with
          writers := s.writers.erase w
          leases := s.leases.insert l lease }
  | .completed l ok =>
    (s.leases.lookup l).bind fun lease =>
      if lease.returned then none
      else if ok then some (s.setLease l { lease with returned := true })
      else some (s.dropLease l lease)
  | .dropWriter w =>
    (s.writers.lookup w).map fun writer =>
      { s.release writer.content.reserved with writers := s.writers.erase w }
  | .memory l bytes =>
    if l ∈ s.leases then none
    else
      match s.memoryReserve bytes with
      | .error _ => some s
      | .ok s => some (s.setLease l ⟨bytes.length, 1, true⟩)
  | .clone l =>
    (s.leases.lookup l).bind fun lease =>
      if lease.returned then some (s.setLease l { lease with holders := lease.holders + 1 })
      else none
  | .dropBacking l =>
    (s.leases.lookup l).bind fun lease =>
      if !lease.returned then none
      else if lease.holders = 1 then some (s.dropLease l lease)
      else some (s.setLease l { lease with holders := lease.holders - 1 })

def machine : Machine SpoolInner SpoolStep where
  init s := s.reservedBytes = 0 ∧ s.writers = ∅ ∧ s.leases = ∅
  step := after

/-! ## The balance -/

def written (s : SpoolInner) : Nat := total (fun writer => writer.content.reserved) s.writers

def leased (s : SpoolInner) : Nat := total (fun lease => lease.bytes) s.leases

structure Balanced (s : SpoolInner) : Prop where
  sum : s.reservedBytes = s.written + s.leased
  within : s.reservedBytes ≤ s.limits.maxTotalBytes
  single : ∀ w writer, s.writers.lookup w = some writer →
    writer.content.reserved ≤ s.limits.maxSingleBytes

variable {s s' : SpoolInner} {l w : Nat} {chunk : Bytes} {content : ContentSpoolWriter}
  {writer : OpenWriter}

variable {bytes : Nat} {lease : ContentLease} {new old : OpenWriter} {step : SpoolStep}

theorem reserve_ok (h : s.reserve bytes = .ok s') :
    s.reservedBytes + bytes ≤ s.limits.maxTotalBytes ∧
      s' = { s with reservedBytes := s.reservedBytes + bytes } := by
  unfold reserve at h
  split at h
  · next hroom =>
    cases h
    exact ⟨hroom.2, rfl⟩
  · cases h

theorem pushReserve_ok {writer : ContentSpoolWriter} {next : Nat}
    (h : s.pushReserve writer chunk = .ok (s', next)) :
    next = writer.reserved + chunk.length ∧ next ≤ s.limits.maxSingleBytes ∧
      s.reservedBytes + chunk.length ≤ s.limits.maxTotalBytes ∧
      s' = { s with reservedBytes := s.reservedBytes + chunk.length } := by
  unfold pushReserve at h
  dsimp only at h
  split at h
  · cases h
  · split at h
    · cases h
    · next hsingle =>
      cases hreserve : s.reserve chunk.length with
      | error e =>
        rw [hreserve] at h
        cases h
      | ok s₁ =>
        rw [hreserve] at h
        obtain ⟨hroom, hs₁⟩ := reserve_ok hreserve
        cases h
        exact ⟨rfl, Nat.le_of_not_gt hsingle, hroom, hs₁⟩

theorem memoryReserve_ok {bytes : Bytes} (h : s.memoryReserve bytes = .ok s') :
    s.reservedBytes + bytes.length ≤ s.limits.maxTotalBytes ∧
      s' = { s with reservedBytes := s.reservedBytes + bytes.length } := by
  unfold memoryReserve at h
  split at h
  · cases h
  · exact reserve_ok h

theorem reserved_pushed (limits : ContentSpoolLimits) (writer : ContentSpoolWriter)
    (chunk : Bytes) (next : Nat) :
    (pushed limits writer chunk next).content.reserved = next := by
  unfold pushed
  split
  · rfl
  · split
    · rfl
    · rfl

/-- A writer that is replaced by one with `next` bytes. -/
theorem Balanced.setWriter (h : s.Balanced) (hold : s.writers.lookup w = some old) (bytes : Nat)
    (hnew : new.content.reserved = old.content.reserved + bytes)
    (hsingle : new.content.reserved ≤ s.limits.maxSingleBytes)
    (htotal : s.reservedBytes + bytes ≤ s.limits.maxTotalBytes) :
    (SpoolInner.setWriter { s with reservedBytes := s.reservedBytes + bytes } w new).Balanced := by
  have hwritten := total_overwrite (f := fun writer : OpenWriter => writer.content.reserved)
    (v := new) hold
  obtain ⟨hsum, -, hall⟩ := h
  refine ⟨?_, htotal, ?_⟩
  · show s.reservedBytes + bytes = total _ (s.writers.insert w new) + s.leased
    unfold written at hsum
    omega
  · intro w' writer hlookup
    by_cases hw : w' = w
    · subst hw
      cases (AList.lookup_insert s.writers).symm.trans hlookup
      exact hsingle
    · exact hall w' writer ((AList.lookup_insert_ne hw).symm.trans hlookup)

theorem Balanced.sameWriter (h : s.Balanced) (hold : s.writers.lookup w = some old)
    (hnew : new.content.reserved = old.content.reserved) : (s.setWriter w new).Balanced :=
  h.setWriter hold 0 hnew (hnew ▸ h.single w old hold) h.within

theorem Balanced.sameLease (h : s.Balanced) {old new : ContentLease}
    (hold : s.leases.lookup l = some old) (hnew : new.bytes = old.bytes) :
    (s.setLease l new).Balanced := by
  have hleased := total_overwrite (f := fun lease : ContentLease => lease.bytes) (v := new) hold
  obtain ⟨hsum, hwithin, hall⟩ := h
  refine ⟨?_, hwithin, hall⟩
  show s.reservedBytes = s.written + total _ (s.leases.insert l new)
  unfold leased at hsum
  omega

theorem Balanced.lease_le (h : s.Balanced) (hlookup : s.leases.lookup l = some lease) :
    lease.bytes ≤ s.reservedBytes := by
  have hle := le_total (f := fun lease : ContentLease => lease.bytes) hlookup
  have hsum := h.sum
  unfold leased at hsum
  omega

theorem Balanced.writer_le (h : s.Balanced) (hlookup : s.writers.lookup w = some writer) :
    writer.content.reserved ≤ s.reservedBytes := by
  have hle := le_total (f := fun writer : OpenWriter => writer.content.reserved) hlookup
  have hsum := h.sum
  unfold written at hsum
  omega

theorem Balanced.release_eq (h : s.Balanced) (hle : bytes ≤ s.reservedBytes) :
    s.release bytes = { s with reservedBytes := s.reservedBytes - bytes } := by
  unfold release
  rw [fetchSub_of_le hle (h.within.trans s.limits.total_u64)]

theorem Balanced.dropLease (h : s.Balanced) (hlookup : s.leases.lookup l = some lease) :
    (s.dropLease l lease).Balanced := by
  have herase := total_erase (f := fun lease : ContentLease => lease.bytes) hlookup
  have hle := h.lease_le hlookup
  unfold SpoolInner.dropLease
  rw [h.release_eq hle]
  obtain ⟨hsum, hwithin, hall⟩ := h
  refine ⟨?_, (Nat.sub_le _ _).trans hwithin, hall⟩
  show s.reservedBytes - lease.bytes = s.written + total _ (s.leases.erase l)
  unfold leased at hsum
  omega

theorem single_erase (h : s.Balanced) (w : Nat) :
    ∀ w' writer, (s.writers.erase w).lookup w' = some writer →
      writer.content.reserved ≤ s.limits.maxSingleBytes := by
  intro w' writer hlookup
  by_cases hw : w' = w
  · subst hw
    cases (AList.lookup_erase w' s.writers).symm.trans hlookup
  · exact h.single w' writer ((AList.lookup_erase_ne hw).symm.trans hlookup)

theorem Balanced.dropWriter (h : s.Balanced) (hlookup : s.writers.lookup w = some writer) :
    Balanced { s.release writer.content.reserved with writers := s.writers.erase w } := by
  have herase := total_erase (f := fun writer : OpenWriter => writer.content.reserved) hlookup
  have hle := h.writer_le hlookup
  have hsingle := single_erase h w
  rw [h.release_eq hle]
  obtain ⟨hsum, hwithin, -⟩ := h
  refine ⟨?_, (Nat.sub_le _ _).trans hwithin, hsingle⟩
  show s.reservedBytes - writer.content.reserved = total _ (s.writers.erase w) + s.leased
  unfold written at hsum
  omega

/-- **The reservation moves** from the writer into its lease. -/
theorem Balanced.finish (h : s.Balanced) (hlookup : s.writers.lookup w = some writer)
    (hfresh : l ∉ s.leases) (lease : ContentLease)
    (hbytes : lease.bytes = writer.content.reserved) :
    Balanced { s with writers := s.writers.erase w, leases := s.leases.insert l lease } := by
  have herase := total_erase (f := fun writer : OpenWriter => writer.content.reserved) hlookup
  have hinsert := total_insert (f := fun lease : ContentLease => lease.bytes) (v := lease)
    (AList.lookup_eq_none.mpr hfresh)
  have hsingle := single_erase h w
  obtain ⟨hsum, hwithin, -⟩ := h
  refine ⟨?_, hwithin, hsingle⟩
  show s.reservedBytes = total _ (s.writers.erase w) + total _ (s.leases.insert l lease)
  unfold written leased at hsum
  omega

theorem Balanced.memory (h : s.Balanced) (hfresh : l ∉ s.leases) (lease : ContentLease)
    (hroom : s.reservedBytes + lease.bytes ≤ s.limits.maxTotalBytes) :
    (SpoolInner.setLease { s with reservedBytes := s.reservedBytes + lease.bytes } l
      lease).Balanced := by
  have hinsert := total_insert (f := fun lease : ContentLease => lease.bytes) (v := lease)
    (AList.lookup_eq_none.mpr hfresh)
  obtain ⟨hsum, -, hall⟩ := h
  refine ⟨?_, hroom, hall⟩
  show s.reservedBytes + lease.bytes = s.written + total _ (s.leases.insert l lease)
  unfold leased at hsum
  omega

theorem Balanced.newWriter (h : s.Balanced) (hfresh : w ∉ s.writers) :
    (s.setWriter w ⟨⟨[], none, 0⟩, .idle⟩).Balanced := by
  have hlookup := AList.lookup_eq_none.mpr hfresh
  have hinsert := total_insert (f := fun writer : OpenWriter => writer.content.reserved)
    (v := ⟨⟨[], none, 0⟩, .idle⟩) hlookup
  obtain ⟨hsum, hwithin, hall⟩ := h
  refine ⟨?_, hwithin, ?_⟩
  · show s.reservedBytes = total _ (s.writers.insert w _) + s.leased
    rw [hinsert]
    exact hsum
  · intro w' writer hwriter
    by_cases hw : w' = w
    · subst hw
      cases (AList.lookup_insert s.writers).symm.trans hwriter
      exact Nat.zero_le _
    · exact hall w' writer ((AList.lookup_insert_ne hw).symm.trans hwriter)

/-- **Every step keeps the balance.** -/
theorem Balanced.after (h : s.Balanced) (hstep : s.after step = some s') : s'.Balanced := by
  cases step with
  | writer w =>
    simp only [SpoolInner.after] at hstep
    split at hstep
    · cases hstep
    · next hfresh =>
      cases hstep
      exact h.newWriter hfresh
  | push w chunk =>
    obtain ⟨writer, hlookup, hstep⟩ := Option.bind_eq_some_iff.mp hstep
    split at hstep
    · cases hstep
    · split at hstep
      · cases hstep
        exact h
      · next s₁ next hpush =>
        cases hstep
        -- the counter and the writer's share grow by the chunk alike
        obtain ⟨hnext, hsingle, htotal, hs₁⟩ := pushReserve_ok hpush
        subst hs₁
        refine h.setWriter hlookup chunk.length ?_ ?_ htotal
        · rw [reserved_pushed, hnext]
        · rw [reserved_pushed]
          exact hsingle
  | created w ok | appended w written ok =>
    obtain ⟨writer, hlookup, hstep⟩ := Option.bind_eq_some_iff.mp hstep
    split at hstep
    · cases hstep
      exact h.sameWriter hlookup rfl
    · cases hstep
  | moved w ok =>
    obtain ⟨writer, hlookup, hstep⟩ := Option.bind_eq_some_iff.mp hstep
    split at hstep
    · cases hstep
      refine h.sameWriter hlookup ?_
      cases ok with
      | true => rfl
      | false => rfl
    · cases hstep
  | cancelPush w =>
    obtain ⟨writer, hlookup, hstep⟩ := Option.bind_eq_some_iff.mp hstep
    split at hstep
    · cases hstep
    · cases hstep
      exact h.sameWriter hlookup rfl
  | finish w l =>
    obtain ⟨writer, hlookup, hstep⟩ := Option.bind_eq_some_iff.mp hstep
    split at hstep
    · cases hstep
    · next hcan =>
      cases hstep
      exact h.finish hlookup (fun hl => hcan (.inr hl)) _ rfl
  | completed l ok =>
    obtain ⟨lease, hlookup, hstep⟩ := Option.bind_eq_some_iff.mp hstep
    split at hstep
    · cases hstep
    · split at hstep
      · cases hstep
        exact h.sameLease hlookup rfl
      · cases hstep
        exact h.dropLease hlookup
  | dropWriter w =>
    obtain ⟨writer, hlookup, rfl⟩ := Option.map_eq_some_iff.mp hstep
    exact h.dropWriter hlookup
  | memory l bytes =>
    simp only [SpoolInner.after] at hstep
    split at hstep
    · cases hstep
    · next hfresh =>
      split at hstep
      · cases hstep
        exact h
      · next s₁ hmemory =>
        cases hstep
        obtain ⟨htotal, hs₁⟩ := memoryReserve_ok hmemory
        subst hs₁
        exact h.memory hfresh ⟨bytes.length, 1, true⟩ htotal
  | clone l =>
    obtain ⟨lease, hlookup, hstep⟩ := Option.bind_eq_some_iff.mp hstep
    split at hstep
    · cases hstep
      exact h.sameLease hlookup rfl
    · cases hstep
  | dropBacking l =>
    obtain ⟨lease, hlookup, hstep⟩ := Option.bind_eq_some_iff.mp hstep
    split at hstep
    · cases hstep
    · split at hstep
      · cases hstep
        exact h.dropLease hlookup
      · cases hstep
        exact h.sameLease hlookup rfl

/-- **The accounts of a spool are right at every moment.** Whatever is pushed, finished,
cloned, dropped or fails in whatever order, the counter is the sum of what the unfinished
writers have reserved and what the live leases hold. It stays within the total limit, no
release takes more than it holds, no writer goes beyond the limit for one file, and it is
zero when nothing refers to the spool any more. -/
theorem spool_accounts {s : SpoolInner} (h : machine.Reach (fun _ _ => True) s) :
    s.reservedBytes = s.written + s.leased ∧
    s.reservedBytes ≤ s.limits.maxTotalBytes ∧
    (∀ w writer, s.writers.lookup w = some writer →
      writer.content.reserved ≤ s.limits.maxSingleBytes ∧
      writer.content.reserved ≤ s.reservedBytes) ∧
    (∀ l lease, s.leases.lookup l = some lease → lease.bytes ≤ s.reservedBytes) ∧
    (s.writers = ∅ → s.leases = ∅ → s.reservedBytes = 0) := by
  have hbalanced : s.Balanced := by
    refine h.invariant ?_ ?_
    · rintro s ⟨hzero, hwriters, hleases⟩
      refine ⟨?_, by omega, ?_⟩
      · rw [hzero, written, leased, hwriters, hleases]
        rfl
      · intro w writer hlookup
        rw [hwriters] at hlookup
        cases hlookup
    · intro s step s' hs _ hstep
      exact hs.after hstep
  refine ⟨hbalanced.sum, hbalanced.within, ?_, fun l lease => hbalanced.lease_le, ?_⟩
  · intro w writer hlookup
    exact ⟨hbalanced.single w writer hlookup, hbalanced.writer_le hlookup⟩
  · intro hwriters hleases
    rw [hbalanced.sum, written, leased, hwriters, hleases]
    rfl

/-- An empty spool for ten bytes. -/
def sampleSpool : SpoolInner where
  limits := ⟨4, 8, 10, by decide⟩
  valid := rfl
  reservedBytes := 0
  writers := ∅
  leases := ∅

/-- Six bytes in memory; a writer's five are refused, two more are taken. -/
theorem sampleSpool_accounts : ∃ s, machine.Reach (fun _ _ => True) s ∧
    s.leased = 6 ∧ s.written = 2 ∧ s.reservedBytes = s.written + s.leased := by
  let steps : List SpoolStep :=
    [.memory 0 [1, 2, 3, 4, 5, 6], .writer 0, .push 0 [1, 2, 3, 4, 5], .push 0 [7, 8]]
  have hrun : ∃ s ∈ machine.exec sampleSpool steps, s.leased = 6 ∧ s.written = 2 := by
    decide +kernel
  obtain ⟨s, hs, hleased, hwritten⟩ := hrun
  have hreach : machine.Reach (fun _ _ => True) s :=
    Machine.reach_of_exec (.init ⟨rfl, rfl, rfl⟩)
      (Machine.allSteps_of_forall (fun _ _ => trivial) steps sampleSpool) hs
  exact ⟨s, hreach, hleased, hwritten, (spool_accounts hreach).1⟩

/-! ## One push at a time -/

theorem exec_after (h : s.after step = some s') (steps : List SpoolStep) :
    machine.exec s (step :: steps) = machine.exec s' steps :=
  Machine.exec_cons h steps

theorem after_created (h : s.writers.lookup w = some ⟨content, .creating chunk⟩) :
    s.after (.created w true) = some (s.setWriter w ⟨content, .moving chunk⟩) := by
  simp [SpoolInner.after, h]

theorem after_moved (h : s.writers.lookup w = some ⟨content, .moving chunk⟩) :
    s.after (.moved w true) = some (s.setWriter w
      ⟨{ content with memory := [], temporary := some content.memory }, .appending chunk⟩) := by
  simp [SpoolInner.after, h]

theorem after_appended (h : s.writers.lookup w = some ⟨content, .appending chunk⟩) (written : Nat) :
    s.after (.appended w written true) = some (s.setWriter w
      ⟨{ content with temporary := content.temporary.map fun file => file ++ chunk }, .idle⟩) := by
  simp [SpoolInner.after, h]

/-- When no file operation fails, the steps of a `push` lead to what
`ContentSpoolWriter.push` says. -/
theorem push_steps {writer writer' : ContentSpoolWriter} {spool spool' : ContentSpool}
    (hlookup : s.writers.lookup w = some ⟨writer, .idle⟩) (hlimits : spool.limits = s.limits)
    (hreserved : spool.reservedBytes = s.reservedBytes)
    (hpush : writer.push spool chunk = .ok (spool', writer')) :
    ∃ steps s', machine.exec s (.push w chunk :: steps) = some s' ∧
      s'.reservedBytes = spool'.reservedBytes ∧ s'.writers.lookup w = some ⟨writer', .idle⟩ := by
  obtain ⟨limits, valid, reservedBytes, within⟩ := spool
  obtain ⟨memory, temporary, reserved⟩ := writer
  dsimp only at hlimits hreserved
  subst hlimits hreserved
  unfold ContentSpoolWriter.push at hpush
  dsimp only at hpush
  split at hpush
  · cases hpush
  · next hu64 =>
    split at hpush
    · cases hpush
    · next hsingle =>
      have htotal : s.reservedBytes + chunk.length ≤ s.limits.maxTotalBytes := by
        by_contra hno
        rw [ContentSpool.reserve, dif_neg hno] at hpush
        cases hpush
      have hmax := htotal.trans s.limits.total_u64
      have hfirst : s.pushReserve ⟨memory, temporary, reserved⟩ chunk =
          .ok ({ s with reservedBytes := s.reservedBytes + chunk.length },
            reserved + chunk.length) := by
        unfold pushReserve reserve
        simp only [if_neg hu64, if_neg hsingle, if_pos (And.intro hmax htotal)]
        rfl
      have hpushed : s.after (.push w chunk) = some (SpoolInner.setWriter
          { s with reservedBytes := s.reservedBytes + chunk.length } w
          (pushed s.limits ⟨memory, temporary, reserved⟩ chunk (reserved + chunk.length))) := by
        simp [SpoolInner.after, hlookup, hfirst]
      have hlook : ∀ (t : SpoolInner) (writer : OpenWriter),
          (t.setWriter w writer).writers.lookup w = some writer := fun t writer =>
        AList.lookup_insert t.writers
      rw [ContentSpool.reserve, dif_pos htotal] at hpush
      cases temporary with
      | none =>
        -- the chunk stays in memory, or is the one that makes the file
        by_cases hsmall : reserved + chunk.length ≤ s.limits.memoryThreshold
        · simp [bind, Except.bind, hsmall] at hpush
          obtain ⟨rfl, rfl⟩ := hpush
          refine ⟨[], _, exec_after hpushed [], rfl, ?_⟩
          rw [hlook]
          simp [pushed, hsmall]
        · simp [bind, Except.bind, hsmall] at hpush
          obtain ⟨rfl, rfl⟩ := hpush
          have hcreating : pushed s.limits ⟨memory, none, reserved⟩ chunk
              (reserved + chunk.length) =
                ⟨⟨memory, none, reserved + chunk.length⟩, .creating chunk⟩ := by
            simp [pushed, hsmall]
          rw [hcreating] at hpushed
          have hrun :=
            (exec_after hpushed [.created w true, .moved w true, .appended w 0 true]).trans
            ((exec_after (after_created (hlook _ _)) _).trans
            ((exec_after (after_moved (hlook _ _)) _).trans
            (exec_after (after_appended (hlook _ _) 0) _)))
          exact ⟨_, _, hrun, rfl, hlook _ _⟩
      | some file =>
        simp [bind, Except.bind] at hpush
        obtain ⟨rfl, rfl⟩ := hpush
        have hrun :=
          (exec_after hpushed [.appended w 0 true]).trans
          (exec_after (after_appended (hlook _ _) 0) _)
        exact ⟨_, _, hrun, rfl, hlook _ _⟩

end SpoolInner

end TuxStack.Docker
