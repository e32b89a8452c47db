import TuxStack.Tar.Index

/-!
# Parsing does not see chunk borders

Header reads, payloads, padding, body skips and the check of the zero tail all
pull through one buffer, whose contents depend on where the chunks of the stream
end. `SameLeft` relates readers that agree on everything but these borders. The
loops of the byte source keep it (`Lib/ChunkSource`), so does every step of
`next_entry` and of `from_stream`, hence the result of `from_stream` is a function
of the bytes (`fromStream_chunk_invariant`).
-/

namespace TuxStack.Tar

open Vfs Result Chunks

namespace TarStreamReader

/-- The readers agree on everything but the borders of the chunks to come. -/
structure SameLeft (r r' : TarStreamReader) : Prop where
  clean : r.source.Clean (policy r.limits)
  clean' : r'.source.Clean (policy r.limits)
  left : r.source.left = r'.source.left
  rest : r' = { r with source := r'.source }

theorem SameLeft.onSource {r r' : TarStreamReader} (h : SameLeft r r')
    {s s' : Source VfsError UInt8} (hs : s.Clean (policy r.limits))
    (hs' : s'.Clean (policy r.limits)) (hleft : s.left = s'.left) :
    SameLeft { r with source := s } { r' with source := s' } :=
  ⟨hs, hs', hleft, by rw [h.rest]⟩

theorem SameLeft.limits {r r' : TarStreamReader} (h : SameLeft r r') : r'.limits = r.limits := by
  rw [h.rest]

/-- A source computation that is a function of what is left keeps the relation. -/
theorem sim_of_left {α : Type} {f : Policy VfsError → Source VfsError UInt8 →
    Except VfsError (α × Source VfsError UInt8)}
    (outcome : Policy VfsError → Bytes → Except VfsError (α × Bytes))
    (hf : ∀ p s, s.Clean p →
      (∃ a t, f p s = .ok (a, t) ∧ t.Clean p ∧ outcome p s.left = .ok (a, t.left)) ∨
        ∃ e, f p s = .error e ∧ outcome p s.left = .error e) :
    Sim SameLeft (onSource f) (onSource f) := by
  intro r r' h
  have hpolicy : policy r'.limits = policy r.limits := by rw [h.limits]
  unfold onSource
  rw [hpolicy]
  rcases hf _ r.source h.clean with ⟨a, t, hs, hclean, hout⟩ | ⟨e, hs, hout⟩
  · rcases hf _ r'.source h.clean' with ⟨a', t', hs', hclean', hout'⟩ | ⟨e', hs', hout'⟩
    · rw [h.left, hout', Except.ok.injEq, Prod.mk.injEq] at hout
      obtain ⟨rfl, hleft⟩ := hout
      rw [hs, hs']
      exact ⟨rfl, h.onSource hclean hclean' hleft.symm⟩
    · rw [h.left, hout'] at hout
      cases hout
  · rcases hf _ r'.source h.clean' with ⟨a', t', hs', hclean', hout'⟩ | ⟨e', hs', hout'⟩
    · rw [h.left, hout'] at hout
      cases hout
    · rw [h.left, hout'] at hout
      cases hout
      rw [hs, hs']
      exact rfl

theorem sim_readExact (length : Nat) : Sim SameLeft (readExact length) (readExact length) := by
  refine sim_of_left (fun p left => if length ≤ left.length then
    .ok (left.take length, left.drop length) else .error p.truncated) fun p s hs => ?_
  rcases Source.readExact_clean hs length with ⟨hle, t, ht, hclean, hdrop⟩ | ⟨hlt, herr⟩
  · exact .inl ⟨_, t, ht, hclean, by rw [if_pos hle, hdrop]⟩
  · exact .inr ⟨_, herr, if_neg (Nat.not_le.mpr hlt)⟩

theorem sim_skipExact (length : Nat) : Sim SameLeft (skipExact length) (skipExact length) := by
  refine sim_of_left (fun p left => if length ≤ left.length then .ok ((), left.drop length)
    else .error p.truncated) fun p s hs => ?_
  rcases Source.skipExact_clean hs length with ⟨hle, t, ht, hclean, hdrop⟩ | ⟨hlt, herr⟩
  · exact .inl ⟨(), t, by rw [ht]; rfl, hclean, by rw [if_pos hle, hdrop]⟩
  · exact .inr ⟨_, by rw [herr]; rfl, if_neg (Nat.not_le.mpr hlt)⟩

theorem sim_ensureZeroTail : Sim SameLeft ensureZeroTail ensureZeroTail := by
  refine sim_of_left (fun _ left => if left.all (· = 0) then .ok ((), [])
    else .error (.io "non-zero bytes after tar end marker")) fun p s hs => ?_
  rcases Source.drain_clean (· = 0) (.io "non-zero bytes after tar end marker") hs with
    ⟨hall, t, ht, hclean, hnil⟩ | ⟨hall, herr⟩
  · exact .inl ⟨(), t, by rw [ht]; rfl, hclean, by rw [if_pos hall, hnil]⟩
  · exact .inr ⟨_, by rw [herr]; rfl, by rw [hall]; rfl⟩

theorem readAlike_sameLeft : ReadAlike SameLeft where
  limits _ _ h := h.limits.symm
  readExact := sim_readExact
  skipExact := sim_skipExact

/-! ## One entry -/

theorem sim_finishArchive : Sim SameLeft finishArchive finishArchive := by
  unfold finishArchive
  refine (sim_readExact tarBlock).bind fun second => ?_
  split
  · exact Sim.throw _
  · refine sim_ensureZeroTail.bind fun _ => ?_
    refine (Sim.modify fun r r' h => ?_).bind fun _ => Sim.pure none
    exact ⟨h.clean, h.clean', h.left, by rw [h.rest]⟩

theorem SameLeft.record {r r' : TarStreamReader} (h : SameLeft r r') (e : Extension) :
    SameLeft (r.record e) (r'.record e) := by
  cases e <;> exact ⟨h.clean, h.clean', h.left, by rw [h.rest]; rfl⟩

theorem sim_finishEntry (header : RawHeader) :
    Sim SameLeft (finishEntry header) (finishEntry header) := by
  intro r r' h
  unfold finishEntry
  have hfields : r'.limits = r.limits ∧ r'.globalPax = r.globalPax ∧
      r'.pendingPax = r.pendingPax ∧ r'.pendingLongName = r.pendingLongName ∧
      r'.pendingLongLink = r.pendingLongLink := by
    rw [h.rest]
    exact ⟨rfl, rfl, rfl, rfl, rfl⟩
  obtain ⟨hlimits, hglobal, hpax, hname, hlink⟩ := hfields
  rw [hlimits, hglobal, hpax, hname, hlink]
  dsimp only
  cases memberEntry r.limits header (r.globalPax.overlay r.pendingPax) r.pendingLongName
      r.pendingLongLink with
  | error e => exact rfl
  | ok entry => exact ⟨rfl, h.clean, h.clean', h.left, by rw [h.rest]⟩

theorem sim_nextLoop : ∀ rounds : Nat, Sim SameLeft (nextLoop rounds) (nextLoop rounds)
  | 0 => Sim.pure none
  | rounds + 1 => by
      unfold nextLoop
      refine (sim_readExact tarBlock).bind fun block => ?_
      split
      · exact sim_finishArchive
      · refine (Sim.lift (parseHeader block)).bind fun header => ?_
        refine (readAlike_sameLeft.readHeaderExtension header).bind fun extension => ?_
        cases extension with
        | none => exact sim_finishEntry header
        | some e =>
          exact (Sim.modify fun r r' h => h.record e).bind fun _ => sim_nextLoop rounds

theorem sim_nextEntry : Sim SameLeft nextEntry nextEntry := by
  intro r r' h
  unfold nextEntry
  have hfields : r'.currentSize = r.currentSize ∧ r'.archiveFinished = r.archiveFinished := by
    rw [h.rest]
    exact ⟨rfl, rfl⟩
  rw [hfields.1, hfields.2, ← h.left]
  split
  · exact rfl
  · split
    · exact ⟨rfl, h⟩
    · exact sim_nextLoop _ r r' h

theorem sim_skipEntryBody : Sim SameLeft skipEntryBody skipEntryBody := by
  intro r r' h
  unfold skipEntryBody
  have hsize : r'.currentSize = r.currentSize := by rw [h.rest]
  rw [hsize]
  split
  · exact rfl
  · rename_i size _
    refine ((sim_skipExact size).bind fun _ => sim_skipExact (padding size)) _ _ ?_
    exact ⟨h.clean, h.clean', h.left, by rw [h.rest]⟩

end TarStreamReader

/-! ## The whole archive -/

open TarStreamReader

theorem sim_fromLoop (maxEntries : Nat) : ∀ (rounds : Nat) (index : TarIndex),
    Sim SameLeft (TarIndex.fromLoop maxEntries rounds index)
      (TarIndex.fromLoop maxEntries rounds index)
  | 0, index => Sim.pure index
  | rounds + 1, index => by
      unfold TarIndex.fromLoop
      refine sim_nextEntry.bind fun out => ?_
      cases out with
      | none => exact Sim.pure index
      | some entry =>
        refine sim_skipEntryBody.bind fun _ => ?_
        split
        · exact sim_fromLoop maxEntries rounds index
        · exact (Sim.lift (index.insertWithParents entry maxEntries)).bind fun index' =>
          sim_fromLoop maxEntries rounds index'

theorem items_chunks (chunks : List Bytes) :
    Source.items (chunks.map (Except.ok (ε := VfsError))) = chunks.flatten := by
  induction chunks with
  | nil => rfl
  | cons chunk chunks ih => rw [List.map_cons, Source.items, ih, List.flatten_cons]

theorem clean_chunks {chunks : List Bytes} {limits : TarLimits}
    (h : chunks.flatten.length ≤ limits.maxArchiveBytes) :
    (Source.ofStream (chunks.map (Except.ok (ε := VfsError)))).Clean (policy limits) where
  noError := by
    intro c hc
    obtain ⟨chunk, -, rfl⟩ := List.mem_map.mp hc
    exact ⟨chunk, rfl⟩
  fits := by
    change 0 + (Source.items (chunks.map Except.ok)).length ≤ limits.maxArchiveBytes
    rw [items_chunks, Nat.zero_add]
    exact h
  atEnd := fun hend => by cases hend

/-- **Chunk invariance.** Two error-free streams that hand out the same bytes,
within the archive limit, in whatever chunks give `from_stream` the same result,
the same index or the same error. -/
theorem fromStream_chunk_invariant {bytes : Bytes} {limits : TarLimits}
    (hlen : bytes.length ≤ limits.maxArchiveBytes) {first second : List Bytes}
    (hfirst : first.flatten = bytes) (hsecond : second.flatten = bytes) :
    TarIndex.fromStream (first.map .ok) limits = TarIndex.fromStream (second.map .ok) limits := by
  have hleft : (TarStreamReader.new (first.map .ok) limits).source.left =
      (TarStreamReader.new (second.map .ok) limits).source.left := by
    change [] ++ Source.items (first.map Except.ok) = [] ++ Source.items (second.map Except.ok)
    rw [items_chunks, items_chunks, hfirst, hsecond]
  have hsame : SameLeft (TarStreamReader.new (first.map .ok) limits)
      (TarStreamReader.new (second.map .ok) limits) :=
    ⟨clean_chunks (by rw [hfirst]; exact hlen), clean_chunks (by rw [hsecond]; exact hlen),
      hleft, rfl⟩
  unfold TarIndex.fromStream
  dsimp only
  rw [← hleft]
  cases limits.validate with
  | error e => rfl
  | ok u => exact (sim_fromLoop limits.maxEntries _ TarIndex.empty _ _ hsame).value_eq

/-- One file, whole and cut inside its header with an empty chunk in between. -/
theorem fromStream_cut_header :
    TarIndex.fromStream [.ok (archive [member (ascii "a") 48 (ascii "body")])]
        TarLimits.standard =
      TarIndex.fromStream
        [.ok ((archive [member (ascii "a") 48 (ascii "body")]).take 300), .ok [],
          .ok ((archive [member (ascii "a") 48 (ascii "body")]).drop 300)]
        TarLimits.standard :=
  @fromStream_chunk_invariant (archive [member (ascii "a") 48 (ascii "body")])
    TarLimits.standard (by decide +kernel)
    [archive [member (ascii "a") 48 (ascii "body")]]
    [(archive [member (ascii "a") 48 (ascii "body")]).take 300, [],
      (archive [member (ascii "a") 48 (ascii "body")]).drop 300]
    (by simp) (by simp)

end TuxStack.Tar
