import TuxStack.Ipc.TerminalSessions

/-!
# Every session is closed

While the ids have not wrapped around, subscription `k` has the id `k + 1` wherever an id is
kept. A session that was obtained is then in one of four places: with its task, which has not
registered it yet, in the registry under that id, with the party that has removed it, or
closed.
-/

namespace TuxStack.Ipc

open Runs
open Server (succId skipUsed)

namespace SessionPhase

/-- The task has the session and has not registered it. -/
def held : SessionPhase → Bool
  | obtained | resized | refused | taken => true
  | _ => false

/-- The session can be in the registry. -/
def listed : SessionPhase → Bool
  | registered | running | returned => true
  | _ => false

/-- The session can have been in the registry. -/
def past : SessionPhase → Bool
  | registered | running | returned | removed _ | closed | ended | finished => true
  | _ => false

theorem past_of_listed {phase : SessionPhase} (h : phase.listed = true) : phase.past = true := by
  cases phase with
  | registered => rfl
  | running => rfl
  | returned => rfl
  | _ => cases h

end SessionPhase

namespace SessionServer

variable {s s' : SessionServer}

/-! ## The places of a session -/

/-- A session that was obtained: closed, about to be closed, with its task, or registered. -/
def Kept (s : SessionServer) (j : Nat) : Prop :=
  j ∈ s.closed ∨ s.Doomed j ∨ (∃ t, s.tasks j = some t ∧ t.phase.held = true) ∨
    s.sessionAt (j + 1) = some j

/-- Entries of the registry are where their numbers say; what was removed does not come
back. -/
structure Placed (s : SessionServer) : Prop where
  entries : ∀ id e, s.terminals.lookup id = some e →
    id = e.serial + 1 ∧ ∃ t, s.tasks e.serial = some t ∧ t.phase.listed = true
  removed : ∀ j ∈ s.removed, s.terminals.lookup (j + 1) = none ∧
    ∃ t, s.tasks j = some t ∧ t.phase.past = true
  served : s.ServedLive

structure Counted (s : SessionServer) : Prop where
  next : s.nextSubscriptionId = succId s.accepted
  room : s.accepted < 2 ^ 64
  live : ∀ id control, s.subscriptions.lookup id = some control → id ≤ s.accepted
  tasks : ∀ k t, s.tasks k = some t → t.id = k + 1 ∧ k < s.accepted

variable {j k key session : Nat} {t : SessionTask} {id : SubscriptionId} {r : SessionRequest}
  {phase : SessionPhase}

theorem sessionAt_eq (h : s.sessionAt id = some j) :
    ∃ e, s.terminals.lookup id = some e ∧ e.serial = j := Option.map_eq_some_iff.mp h

theorem Placed.not_removed (h : s.Placed) (hat : s.sessionAt id = some j) : j ∉ s.removed := by
  intro hremoved
  obtain ⟨e, he, rfl⟩ := sessionAt_eq hat
  obtain ⟨hid, -⟩ := h.entries id e he
  rw [hid, (h.removed e.serial hremoved).1] at he
  cases he

/-! ## What changes nothing -/

/-- Tasks and requests are added, or cancelled; the loop does not forget what it is to
close. -/
structure Extends (s s' : SessionServer) : Prop where
  tasks : ∀ k t, s.tasks k = some t → ∃ t', s'.tasks k = some t' ∧ t'.phase = t.phase
  requests : ∀ key r, s.requests key = some r → ∃ r', s'.requests key = some r' ∧
    r'.phase = r.phase
  loop : s'.loop = s.loop ∨ s.loop = .serving
  terminals : s'.terminals = s.terminals
  closed : s'.closed = s.closed
  removed : s'.removed = s.removed
  served : s'.served = s.served

theorem Extends.doomed (h : s.Extends s') (hdoomed : s.Doomed j) : s'.Doomed j := by
  rcases hdoomed with ⟨k, t, ht, hphase⟩ | ⟨key, r, hr, hphase⟩ | hloop | ⟨ks, hloop, hj⟩
  · obtain ⟨t', ht', hphase'⟩ := h.tasks k t ht
    exact .inl ⟨k, t', ht', hphase'.trans hphase⟩
  · obtain ⟨r', hr', hphase'⟩ := h.requests key r hr
    exact .inr (.inl ⟨key, r', hr', hphase'.trans hphase⟩)
  · rcases h.loop with hsame | hserving
    · exact .inr (.inr (.inl (hsame.trans hloop)))
    · rw [hserving] at hloop
      cases hloop
  · rcases h.loop with hsame | hserving
    · exact .inr (.inr (.inr ⟨ks, hsame.trans hloop, hj⟩))
    · rw [hserving] at hloop
      cases hloop

theorem Extends.kept (h : s.Extends s') (hkept : s.Kept j) : s'.Kept j := by
  rcases hkept with hclosed | hdoomed | ⟨t, ht, hheld⟩ | hat
  · exact .inl (h.closed ▸ hclosed)
  · exact .inr (.inl (h.doomed hdoomed))
  · obtain ⟨t', ht', hphase⟩ := h.tasks j t ht
    exact .inr (.inr (.inl ⟨t', ht', hphase ▸ hheld⟩))
  · refine .inr (.inr (.inr ?_))
    unfold sessionAt
    rw [h.terminals]
    exact hat

theorem Extends.placed (h : s.Extends s') (hplaced : s.Placed) : s'.Placed where
  entries id e he := by
    rw [h.terminals] at he
    obtain ⟨hid, t, ht, hlisted⟩ := hplaced.entries id e he
    obtain ⟨t', ht', hphase⟩ := h.tasks e.serial t ht
    exact ⟨hid, t', ht', hphase ▸ hlisted⟩
  removed j hj := by
    rw [h.removed] at hj
    obtain ⟨hnone, t, ht, hpast⟩ := hplaced.removed j hj
    obtain ⟨t', ht', hphase⟩ := h.tasks j t ht
    exact ⟨h.terminals ▸ hnone, t', ht', hphase ▸ hpast⟩
  served := by
    unfold ServedLive
    rw [h.served]
    exact hplaced.served

theorem extends_cancelTask (k : Nat) : s.Extends (s.cancelTask k) where
  tasks j t ht := by
    by_cases hj : j = k
    · refine ⟨{ t with cancelled := true }, ?_, rfl⟩
      show Function.update s.tasks k _ j = _
      rw [hj, Function.update_self, ← hj, ht]
      rfl
    · exact ⟨t, (Function.update_of_ne hj _ _).trans ht, rfl⟩
  requests _ r hr := ⟨r, hr, rfl⟩
  loop := .inl rfl
  terminals := rfl
  closed := rfl
  removed := rfl
  served := rfl

theorem extends_leave (hloop : s.loop = .serving) : s.Extends s.leave where
  tasks k t ht := by
    show ∃ t', (s.tasks k).map _ = some t' ∧ _
    rw [ht, Option.map_some]
    refine ⟨_, rfl, ?_⟩
    split
    · rfl
    · rfl
  requests key r hr := by
    refine ⟨{ r with cancelled := true }, ?_, rfl⟩
    show (s.requests key).map _ = _
    rw [hr]
    rfl
  loop := .inr hloop
  terminals := rfl
  closed := rfl
  removed := rfl
  served := rfl

/-! ## The task of a subscription -/

theorem tasks_setPhase (s : SessionServer) (k : Nat) (t : SessionTask) (phase : SessionPhase)
    (j : Nat) :
    (s.setPhase k t phase).tasks j = if j = k then some { t with phase } else s.tasks j :=
  Function.update_apply ..

theorem kept_setPhase (h : s.Kept j) (ht : s.tasks k = some t)
    (hheld : j = k → t.phase.held = true → (s.setPhase k t phase).Kept j)
    (hremoved : t.phase = .removed (some j) → (s.setPhase k t phase).Kept j) :
    (s.setPhase k t phase).Kept j := by
  rcases h with hclosed | (⟨i, u, hu, hphase⟩ | hrest) | ⟨u, hu, hphase⟩ | hat
  · exact .inl hclosed
  · by_cases hi : i = k
    · rw [hi, ht, Option.some.injEq] at hu
      exact hremoved (hu ▸ hphase)
    · exact .inr (.inl (.inl ⟨i, u, by rw [tasks_setPhase, if_neg hi, hu], hphase⟩))
  · exact .inr (.inl (.inr hrest))
  · by_cases hj : j = k
    · rw [hj, ht, Option.some.injEq] at hu
      exact hheld hj (hu ▸ hphase)
    · exact .inr (.inr (.inl ⟨u, by rw [tasks_setPhase, if_neg hj, hu], hphase⟩))
  · exact .inr (.inr (.inr hat))

theorem placed_setPhase (h : s.Placed) (ht : s.tasks k = some t)
    (hlisted : t.phase.listed = true → phase.listed = true ∨ s.terminals.lookup (k + 1) = none)
    (hpast : t.phase.past = true → phase.past = true) : (s.setPhase k t phase).Placed where
  entries id e he := by
    obtain ⟨hid, u, hu, hphase⟩ := h.entries id e he
    refine ⟨hid, ?_⟩
    by_cases hk : e.serial = k
    · rw [hk, ht, Option.some.injEq] at hu
      rcases hlisted (hu ▸ hphase) with hnew | hnone
      · exact ⟨{ t with phase }, by rw [tasks_setPhase, if_pos hk], hnew⟩
      · rw [← hk, ← hid] at hnone
        cases hnone.symm.trans he
    · exact ⟨u, by rw [tasks_setPhase, if_neg hk, hu], hphase⟩
  removed j hj := by
    obtain ⟨hnone, u, hu, hphase⟩ := h.removed j hj
    refine ⟨hnone, ?_⟩
    by_cases hk : j = k
    · rw [hk, ht, Option.some.injEq] at hu
      exact ⟨{ t with phase }, by rw [tasks_setPhase, if_pos hk], hpast (hu ▸ hphase)⟩
    · exact ⟨u, by rw [tasks_setPhase, if_neg hk, hu], hphase⟩
  served := h.served

/-! ## The registry -/

theorem kept_removeTerminal (h : s.Kept j) (id : SubscriptionId) :
    (s.removeTerminal id).Kept j ∨ s.sessionAt id = some j := by
  rcases h with hclosed | hdoomed | hheld | hat
  · exact .inl (.inl hclosed)
  · exact .inl (.inr (.inl hdoomed))
  · exact .inl (.inr (.inr (.inl hheld)))
  · by_cases hid : j + 1 = id
    · exact .inr (hid ▸ hat)
    · refine .inl (.inr (.inr (.inr ?_)))
      show ((s.terminals.erase id).lookup (j + 1)).map _ = _
      rw [AList.lookup_erase_ne hid]
      exact hat

theorem placed_removeTerminal (h : s.Placed) (id : SubscriptionId) :
    (s.removeTerminal id).Placed where
  entries id' e he := by
    by_cases hid : id' = id
    · rw [hid] at he
      cases (AList.lookup_erase id s.terminals).symm.trans he
    · exact h.entries id' e ((AList.lookup_erase_ne hid).symm.trans he)
  removed j hj := by
    show (s.terminals.erase id).lookup (j + 1) = none ∧ _
    rcases List.mem_append.mp hj with hj | hj
    · obtain ⟨hnone, hpast⟩ := h.removed j hj
      refine ⟨?_, hpast⟩
      by_cases hid : j + 1 = id
      · rw [hid, AList.lookup_erase]
      · rw [AList.lookup_erase_ne hid, hnone]
    · obtain ⟨e, he, rfl⟩ := sessionAt_eq (Option.mem_toList.mp hj)
      obtain ⟨hid, t, ht, hlisted⟩ := h.entries id e he
      exact ⟨by rw [hid, AList.lookup_erase], t, ht, SessionPhase.past_of_listed hlisted⟩
  served := h.served

theorem kept_close (h : s.Kept j) (sessions : List Nat) : (s.close sessions).Kept j :=
  h.imp_left fun hclosed => List.mem_append_left _ hclosed

theorem placed_close (h : s.Placed) (sessions : List Nat) : (s.close sessions).Placed :=
  { h with }

theorem placed_register (h : s.Placed) (ht : s.tasks k = some t) (hphase : t.phase = .taken)
    (hid : t.id = k + 1) :
    ({ s with terminals := s.terminals.insert t.id ⟨k, t.containerId⟩ }.setPhase k t
      .registered : SessionServer).Placed where
  entries id e he := by
    by_cases hsame : id = t.id
    · rw [hsame] at he
      obtain rfl := Option.some.inj ((AList.lookup_insert s.terminals).symm.trans he)
      refine ⟨hsame.trans hid, { t with phase := .registered }, ?_, rfl⟩
      rw [tasks_setPhase]
      exact if_pos rfl
    · obtain ⟨hplace, u, hu, hlisted⟩ :=
        h.entries id e ((AList.lookup_insert_ne hsame).symm.trans he)
      refine ⟨hplace, u, ?_, hlisted⟩
      rw [tasks_setPhase, if_neg]
      · exact hu
      · intro hk
        rw [hplace, hk, hid] at hsame
        exact hsame rfl
  removed j hj := by
    obtain ⟨hnone, u, hu, hpast⟩ := h.removed j hj
    have hne : j ≠ k := by
      rintro rfl
      rw [ht, Option.some.injEq] at hu
      rw [← hu, hphase] at hpast
      cases hpast
    refine ⟨?_, u, by rw [tasks_setPhase, if_neg hne]; exact hu, hpast⟩
    show (s.terminals.insert t.id _).lookup (j + 1) = none
    rw [AList.lookup_insert_ne fun hkey => hne (Nat.succ.inj (hkey.trans hid)), hnone]
  served := h.served

theorem kept_register (h : s.Kept j) (ht : s.tasks k = some t) (hphase : t.phase = .taken)
    (hid : t.id = k + 1) :
    ({ s with terminals := s.terminals.insert t.id ⟨k, t.containerId⟩ }.setPhase k t
      .registered : SessionServer).Kept j := by
  by_cases hj : j = k
  · refine .inr (.inr (.inr ?_))
    show ((s.terminals.insert t.id ⟨k, t.containerId⟩).lookup (j + 1)).map _ = some j
    rw [hj, ← hid, AList.lookup_insert]
    rfl
  · have hinsert : ({ s with terminals := s.terminals.insert t.id ⟨k, t.containerId⟩ } :
        SessionServer).Kept j := by
      rcases h with hclosed | hdoomed | hheld | hat
      · exact .inl hclosed
      · exact .inr (.inl hdoomed)
      · exact .inr (.inr (.inl hheld))
      · refine .inr (.inr (.inr ?_))
        show ((s.terminals.insert t.id _).lookup (j + 1)).map _ = _
        rw [AList.lookup_insert_ne fun hkey => hj (Nat.succ.inj (hkey.trans hid))]
        exact hat
    refine kept_setPhase hinsert ht (fun hk => absurd hk hj) fun hremoved => ?_
    rw [hphase] at hremoved
    cases hremoved

/-! ## Requests -/

theorem requests_setRequest (s : SessionServer) (key : Nat) (r : SessionRequest)
    (phase : SessionRequestPhase) (key' : Nat) : (s.setRequest key r phase).requests key' =
      if key' = key then some { r with phase } else s.requests key' :=
  Function.update_apply ..

theorem kept_setRequest {phase : SessionRequestPhase} (h : s.Kept j) (hr : s.requests key = some r)
    (hclosing : r.phase = .closing j → (s.setRequest key r phase).Kept j) :
    (s.setRequest key r phase).Kept j := by
  rcases h with hclosed | (hdoomed | ⟨key', u, hu, hphase⟩ | hrest) | hheld | hat
  · exact .inl hclosed
  · exact .inr (.inl (.inl hdoomed))
  · by_cases hkey : key' = key
    · rw [hkey, hr, Option.some.injEq] at hu
      exact hclosing (hu ▸ hphase)
    · refine .inr (.inl (.inr (.inl ⟨key', u, ?_, hphase⟩)))
      rw [requests_setRequest, if_neg hkey, hu]
  · exact .inr (.inl (.inr (.inr hrest)))
  · exact .inr (.inr (.inl hheld))
  · exact .inr (.inr (.inr hat))

theorem placed_setRequest (h : s.Placed) (key : Nat) (r : SessionRequest)
    (phase : SessionRequestPhase) : (s.setRequest key r phase).Placed :=
  { h with }

/-- A request that finds a session finds one that was not removed. -/
theorem placed_found (h : s.Placed) (hat : s.sessionAt id = some session) :
    (s.found session).Placed where
  entries := h.entries
  removed := h.removed
  served r hr := by
    rcases List.mem_append.mp hr with hr | hr
    · exact h.served r hr
    · obtain rfl := List.mem_singleton.mp hr
      exact h.not_removed hat

/-! ## Numbers -/

theorem counted_setPhase (h : s.Counted) (ht : s.tasks k = some t) (phase : SessionPhase) :
    (s.setPhase k t phase).Counted where
  next := h.next
  room := h.room
  live := h.live
  tasks j u hu := by
    rw [tasks_setPhase] at hu
    split at hu
    · next hj =>
      obtain rfl := Option.some.inj hu
      exact hj ▸ h.tasks k t ht
    · exact h.tasks j u hu

theorem counted_cancelTask (h : s.Counted) (k : Nat) : (s.cancelTask k).Counted where
  next := h.next
  room := h.room
  live := h.live
  tasks j u hu := by
    change Function.update s.tasks k _ j = _ at hu
    rw [Function.update_apply] at hu
    split at hu
    · next hj =>
      obtain ⟨t, ht, rfl⟩ := Option.map_eq_some_iff.mp hu
      exact hj ▸ h.tasks k t ht
    · exact h.tasks j u hu

theorem counted_leave (h : s.Counted) : s.leave.Counted where
  next := h.next
  room := h.room
  live := h.live
  tasks j u hu := by
    obtain ⟨t, ht, rfl⟩ := Option.map_eq_some_iff.mp hu
    have hplace := h.tasks j t ht
    split
    · exact hplace
    · exact hplace

theorem counted_erase (h : s.Counted) (id : SubscriptionId) :
    ∀ i control, (s.subscriptions.erase id).lookup i = some control → i ≤ s.accepted := by
  intro i control hi
  by_cases hid : i = id
  · rw [hid, AList.lookup_erase] at hi
    cases hi
  · exact h.live i control ((AList.lookup_erase_ne hid).symm.trans hi)

theorem succId_of_lt {n : Nat} (h : n + 1 < 2 ^ 64) : succId n = n + 1 := by
  unfold succId wrappingSucc
  rw [Nat.mod_eq_of_lt h]
  exact max_eq_left (Nat.succ_pos n)

theorem freeId_eq (h : s.Counted) (hroom : s.accepted + 1 < 2 ^ 64) :
    s.freeId = s.accepted + 1 := by
  have hnext : s.nextSubscriptionId = s.accepted + 1 := h.next.trans (succId_of_lt hroom)
  have hfree : s.subscriptions.lookup s.nextSubscriptionId = none := by
    cases hget : s.subscriptions.lookup s.nextSubscriptionId with
    | none => rfl
    | some control =>
      have hle := h.live _ _ hget
      rw [hnext] at hle
      exact absurd hle (Nat.not_succ_le_self _)
  unfold freeId
  cases (Assoc.values s.subscriptions).length with
  | zero => exact hnext
  | succ fuel =>
    unfold skipUsed
    rw [hfree]
    exact hnext

/-! ## Steps -/

structure Sound (s : SessionServer) : Prop where
  counted : s.Counted
  placed : s.Placed
  kept : ∀ j ∈ s.obtained, s.Kept j

theorem Sound.extend (h : s.Sound) (hextends : s.Extends s') (hcounted : s'.Counted)
    (hobtained : s'.obtained = s.obtained) : s'.Sound where
  counted := hcounted
  placed := hextends.placed h.placed
  kept j hj := hextends.kept (h.kept j (hobtained ▸ hj))

theorem sound_setPhase (h : s.Sound) (ht : s.tasks k = some t)
    (hheld : t.phase.held = true → phase.held = true) (hremoved : ∀ j, t.phase ≠ .removed (some j))
    (hlisted : t.phase.listed = true → phase.listed = true)
    (hpast : t.phase.past = true → phase.past = true) : (s.setPhase k t phase).Sound where
  counted := counted_setPhase h.counted ht phase
  placed := placed_setPhase h.placed ht (fun hl => .inl (hlisted hl)) hpast
  kept j hj := by
    refine kept_setPhase (h.kept j hj) ht (fun hk hh => ?_) fun hr => absurd hr (hremoved j)
    refine .inr (.inr (.inl ⟨{ t with phase }, ?_, hheld hh⟩))
    rw [tasks_setPhase, if_pos hk]

theorem sound_obtain (h : s.Sound) (ht : s.tasks k = some t) (hphase : t.phase = .connecting) :
    ({ s with obtained := s.obtained ++ [k] }.setPhase k t .obtained : SessionServer).Sound where
  counted := counted_setPhase (s := { s with obtained := s.obtained ++ [k] })
    { h.counted with } ht .obtained
  placed := placed_setPhase (s := { s with obtained := s.obtained ++ [k] })
    { h.placed with } ht
    (fun hl => by rw [hphase] at hl; cases hl) (fun hp => by rw [hphase] at hp; cases hp)
  kept j hj := by
    have hown : ({ s with obtained := s.obtained ++ [k] }.setPhase k t .obtained :
        SessionServer).Kept k :=
      .inr (.inr (.inl ⟨{ t with phase := .obtained }, by rw [tasks_setPhase, if_pos rfl],
        rfl⟩))
    rcases List.mem_append.mp hj with hj | hj
    · have hkept : ({ s with obtained := s.obtained ++ [k] } : SessionServer).Kept j := h.kept j hj
      refine kept_setPhase hkept ht (fun hk _ => hk ▸ hown) fun hr => ?_
      rw [hphase] at hr
      cases hr
    · exact List.mem_singleton.mp hj ▸ hown

theorem sound_refused (h : s.Sound) (ht : s.tasks k = some t) (hphase : t.phase = .refused) :
    ((s.close [k]).setPhase k t .returned).Sound where
  counted := counted_setPhase (s := s.close [k])
    { h.counted with } ht .returned
  placed := placed_setPhase (placed_close h.placed [k]) ht
    (fun hl => by rw [hphase] at hl; cases hl) (fun hp => by rw [hphase] at hp; cases hp)
  kept j hj := by
    refine kept_setPhase (kept_close (h.kept j hj) [k]) ht (fun hk _ => ?_) fun hr => ?_
    · exact .inl (List.mem_append_right _ (hk ▸ List.mem_cons_self))
    · rw [hphase] at hr
      cases hr

theorem sound_register (h : s.Sound) (ht : s.tasks k = some t) (hphase : t.phase = .taken) :
    ({ s with terminals := s.terminals.insert t.id ⟨k, t.containerId⟩ }.setPhase k t
      .registered : SessionServer).Sound where
  counted := counted_setPhase
    (s := { s with terminals := s.terminals.insert t.id ⟨k, t.containerId⟩ })
    { h.counted with } ht .registered
  placed := placed_register h.placed ht hphase (h.counted.tasks k t ht).1
  kept j hj := kept_register (h.kept j hj) ht hphase (h.counted.tasks k t ht).1

theorem sound_remove (h : s.Sound) (ht : s.tasks k = some t) (hphase : t.phase = .returned) :
    ((s.removeTerminal t.id).setPhase k t (.removed (s.sessionAt t.id))).Sound where
  counted := counted_setPhase (s := s.removeTerminal t.id)
    { h.counted with } ht _
  placed := by
    refine placed_setPhase (placed_removeTerminal h.placed t.id) ht (fun _ => .inr ?_)
      fun _ => rfl
    show (s.terminals.erase t.id).lookup (k + 1) = none
    rw [(h.counted.tasks k t ht).1, AList.lookup_erase]
  kept j hj := by
    rcases kept_removeTerminal (h.kept j hj) t.id with hkept | hat
    · refine kept_setPhase hkept ht (fun _ hh => ?_) fun hr => ?_
      · rw [hphase] at hh
        cases hh
      · rw [hphase] at hr
        cases hr
    · refine .inr (.inl (.inl ⟨k, { t with phase := .removed (s.sessionAt t.id) }, ?_, ?_⟩))
      · rw [tasks_setPhase, if_pos rfl]
      · rw [hat]

theorem sound_closeRemoved {session : Option Nat} (h : s.Sound) (ht : s.tasks k = some t)
    (hphase : t.phase = .removed session) :
    ((s.close session.toList).setPhase k t .closed).Sound where
  counted := counted_setPhase (s := s.close session.toList)
    { h.counted with } ht .closed
  placed := placed_setPhase (placed_close h.placed _) ht
    (fun hl => by rw [hphase] at hl; cases hl) fun _ => rfl
  kept j hj := by
    refine kept_setPhase (kept_close (h.kept j hj) _) ht (fun _ hh => ?_) fun hr => ?_
    · rw [hphase] at hh
      cases hh
    · rw [hphase] at hr
      injection hr with hsession
      rw [hsession]
      exact .inl (List.mem_append_right _ List.mem_cons_self)

theorem sound_stepTask {ok : Bool} (h : s.Sound) (ht : s.tasks k = some t)
    (hstep : s.stepTask k t ok = some s') : s'.Sound := by
  unfold stepTask at hstep
  match hphase : t.phase with
  | .streaming | .started | .checking =>
    rw [hphase] at hstep
    obtain rfl := Option.some.inj hstep
    exact sound_setPhase h ht (by simp [hphase, SessionPhase.held]) (by simp [hphase])
      (by simp [hphase, SessionPhase.listed]) (by simp [hphase, SessionPhase.past])
  | .connecting =>
    rw [hphase] at hstep
    cases ok with
    -- the one step that obtains a session
    | true =>
      obtain rfl := Option.some.inj hstep
      exact sound_obtain h ht hphase
    | false =>
      obtain rfl := Option.some.inj hstep
      exact sound_setPhase h ht (by simp [hphase, SessionPhase.held]) (by simp [hphase])
        (by simp [hphase, SessionPhase.listed]) (by simp [hphase, SessionPhase.past])
  | .obtained | .resized =>
    rw [hphase] at hstep
    obtain rfl := Option.some.inj hstep
    exact sound_setPhase h ht (fun _ => by cases ok <;> rfl) (by simp [hphase])
      (by simp [hphase, SessionPhase.listed]) (by simp [hphase, SessionPhase.past])
  | .refused =>
    rw [hphase] at hstep
    obtain rfl := Option.some.inj hstep
    exact sound_refused h ht hphase
  | .taken =>
    rw [hphase] at hstep
    obtain rfl := Option.some.inj hstep
    exact sound_register h ht hphase
  | .registered | .running =>
    rw [hphase] at hstep
    obtain rfl := Option.some.inj hstep
    refine sound_setPhase h ht (by simp [hphase, SessionPhase.held]) (by simp [hphase])
      (fun _ => ?_) fun _ => ?_
    · split
      · rfl
      · rfl
    · split
      · rfl
      · rfl
  | .returned =>
    rw [hphase] at hstep
    obtain rfl := Option.some.inj hstep
    exact sound_remove h ht hphase
  | .removed session =>
    rw [hphase] at hstep
    obtain rfl := Option.some.inj hstep
    exact sound_closeRemoved h ht hphase
  | .closed =>
    rw [hphase] at hstep
    obtain rfl := Option.some.inj hstep
    exact sound_setPhase h ht (by simp [hphase, SessionPhase.held]) (by simp [hphase])
      (by simp [hphase, SessionPhase.listed]) fun _ => rfl
  | .ended =>
    rw [hphase] at hstep
    obtain rfl := Option.some.inj hstep
    have hdone : ({ s with subscriptionDone := s.subscriptionDone ++ [t.id] } :
        SessionServer).Sound :=
      ⟨{ h.counted with },
        { h.placed with }, h.kept⟩
    exact sound_setPhase hdone ht (by simp [hphase, SessionPhase.held]) (by simp [hphase])
      (by simp [hphase, SessionPhase.listed]) fun _ => rfl
  | .finished =>
    rw [hphase] at hstep
    cases hstep

theorem sound_setRequest (h : s.Sound) (hr : s.requests key = some r)
    (hclosing : ∀ j, r.phase ≠ .closing j) (phase : SessionRequestPhase) :
    (s.setRequest key r phase).Sound where
  counted := { h.counted with }
  placed := placed_setRequest h.placed key r phase
  kept j hj := kept_setRequest (h.kept j hj) hr fun hphase => absurd hphase (hclosing j)

theorem sound_found (h : s.Sound) (hat : s.sessionAt id = some session) :
    (s.found session).Sound where
  counted := { h.counted with }
  placed := placed_found h.placed hat
  kept := h.kept

theorem sound_serveBy (h : s.Sound) (hr : s.requests key = some r) (hphase : r.phase = .running)
    (id : SubscriptionId) : (s.serveBy key r id).Sound := by
  have hclosing : ∀ j, r.phase ≠ .closing j := by simp [hphase]
  unfold serveBy
  split
  · exact sound_setRequest h hr hclosing .finished
  · next session hat => exact sound_setRequest (sound_found h hat) hr hclosing (.serving session)

theorem sound_removeBy (h : s.Sound) (hr : s.requests key = some r) (hphase : r.phase = .running)
    (hat : s.sessionAt id = some session) :
    (((s.found session).removeTerminal id).setRequest key r (.closing session)).Sound where
  counted := { h.counted with }
  placed := placed_setRequest (placed_removeTerminal (placed_found h.placed hat) id) key r _
  kept j hj := by
    have hfound : (s.found session).Kept j := h.kept j hj
    rcases kept_removeTerminal hfound id with hkept | hsame
    · refine kept_setRequest hkept hr fun hclosing => ?_
      rw [hphase] at hclosing
      cases hclosing
    · obtain rfl : session = j := Option.some.inj (hat.symm.trans hsame)
      refine .inr (.inl (.inr (.inl ⟨key, { r with phase := .closing session }, ?_, rfl⟩)))
      rw [requests_setRequest, if_pos rfl]

theorem sound_stepRequest (h : s.Sound) (hr : s.requests key = some r)
    (hstep : s.stepRequest key r = some s') : s'.Sound := by
  unfold stepRequest at hstep
  match hphase : r.phase with
  | .running =>
    have hclosing : ∀ j, r.phase ≠ .closing j := by simp [hphase]
    rw [hphase] at hstep
    match hrequest : r.request with
    | .containerTerminalInput id bytes | .containerTerminalResize id rows cols =>
      simp only [hrequest] at hstep
      split at hstep
      · obtain rfl := Option.some.inj hstep
        exact sound_setRequest h hr hclosing .finished
      · obtain rfl := Option.some.inj hstep
        exact sound_serveBy h hr hphase id
    | .containerTerminalClose id =>
      simp only [hrequest] at hstep
      split at hstep
      · obtain rfl := Option.some.inj hstep
        exact sound_setRequest h hr hclosing .finished
      · next session hat =>
        obtain rfl := Option.some.inj hstep
        exact sound_removeBy h hr hphase hat
    | .service _ =>
      simp only [hrequest] at hstep
      obtain rfl := Option.some.inj hstep
      exact sound_setRequest h hr hclosing .finished
  | .serving _ =>
    rw [hphase] at hstep
    obtain rfl := Option.some.inj hstep
    exact sound_setRequest h hr (by simp [hphase]) .finished
  | .closing session =>
    rw [hphase] at hstep
    obtain rfl := Option.some.inj hstep
    refine ⟨{ h.counted with },
      placed_setRequest (placed_close h.placed [session]) key r _, fun j hj => ?_⟩
    refine kept_setRequest (kept_close (h.kept j hj) [session]) hr fun hclosing => ?_
    obtain rfl : session = j := by
      rw [hphase] at hclosing
      exact SessionRequestPhase.closing.inj hclosing
    exact .inl (List.mem_append_right _ List.mem_cons_self)
  | .finished =>
    rw [hphase] at hstep
    cases hstep

theorem sound_dropRequest (h : s.Sound) (hr : s.requests key = some r)
    (hstep : s.dropRequest key r = some s') : s'.Sound := by
  unfold dropRequest at hstep
  match hphase : r.phase with
  | .running | .serving _ =>
    rw [hphase] at hstep
    obtain ⟨-, hstep⟩ := Option.ite_none_right_eq_some.mp hstep
    obtain rfl := Option.some.inj hstep
    exact sound_setRequest h hr (by simp [hphase]) .finished
  | .closing _ | .finished =>
    rw [hphase] at hstep
    cases hstep

theorem sound_accept {request : SubscriptionRequest} {taskCost : Nat} {sent : Bool}
    (h : s.Sound) (hloop : s.loop = .serving) (hroom : s.accepted + 1 < 2 ^ 64) :
    (s.accept request taskCost sent).Sound := by
  have hid := freeId_eq h.counted hroom
  have hlive : ∀ i control, (s.subscriptions.insert s.freeId ⟨s.accepted, taskCost⟩).lookup i =
      some control → i ≤ s.accepted + 1 := by
    intro i control hi
    by_cases hsame : i = s.freeId
    · exact (hsame.trans hid).le
    · rw [AList.lookup_insert_ne hsame] at hi
      exact Nat.le_succ_of_le (h.counted.live i control hi)
  unfold accept
  dsimp only
  split
  · refine Sound.extend h ⟨fun k t ht => ⟨t, ?_, rfl⟩, fun _ r hr => ⟨r, hr, rfl⟩, .inl rfl,
      rfl, rfl, rfl, rfl⟩ ⟨?_, hroom, hlive, fun k t ht => ?_⟩ rfl
    · show Function.update s.tasks s.accepted _ k = some t
      rw [Function.update_of_ne (h.counted.tasks k t ht).2.ne]
      exact ht
    · show succId s.freeId = succId (s.accepted + 1)
      rw [hid]
    · change Function.update s.tasks s.accepted _ k = some t at ht
      rw [Function.update_apply] at ht
      split at ht
      · next hk =>
        obtain rfl := Option.some.inj ht
        refine ⟨?_, hk ▸ Nat.lt_succ_self _⟩
        show (newTask s.freeId request).id = k + 1
        rw [hk, ← hid]
        cases request with
        | _ => rfl
      · obtain ⟨hplace, hlt⟩ := h.counted.tasks k t ht
        exact ⟨hplace, Nat.lt_succ_of_lt hlt⟩
  · let counting : SessionServer := { s with
      nextSubscriptionId := succId s.freeId
      subscriptions := s.subscriptions.insert s.freeId ⟨s.accepted, taskCost⟩
      subscriptionTasks := s.subscriptionTasks + taskCost
      accepted := s.accepted + 1 }
    have hcounting : counting.Sound := by
      refine Sound.extend h ⟨fun k t ht => ⟨t, ht, rfl⟩, fun _ r hr => ⟨r, hr, rfl⟩, .inl rfl,
        rfl, rfl, rfl, rfl⟩ ⟨?_, hroom, hlive, fun k t ht => ?_⟩ rfl
      · show succId s.freeId = succId (s.accepted + 1)
        rw [hid]
      · obtain ⟨hplace, hlt⟩ := h.counted.tasks k t ht
        exact ⟨hplace, Nat.lt_succ_of_lt hlt⟩
    exact hcounting.extend (extends_leave hloop) (counted_leave hcounting.counted) rfl

theorem sound_leave (h : s.Sound) (hloop : s.loop = .serving) : s.leave.Sound :=
  h.extend (extends_leave hloop) (counted_leave h.counted) rfl

theorem sound_subscribe {request : SubscriptionRequest} {sent : Bool} (h : s.Sound)
    (hloop : s.loop = .serving) (hroom : s.accepted + 1 < 2 ^ 64) :
    (s.subscribe request sent).Sound := by
  have hrefused : (if sent then s else s.leave).Sound := by
    split
    · exact h
    · exact sound_leave h hloop
  unfold subscribe
  split
  · exact hrefused
  · split
    · exact hrefused
    · exact sound_accept h hloop hroom

theorem sound_unsubscribe (h : s.Sound) (hloop : s.loop = .serving) (id : SubscriptionId) :
    (s.unsubscribe id).Sound := by
  unfold unsubscribe
  split
  · next control _ =>
    have hextends := extends_cancelTask (s := s) control.serial
    have hcounted := counted_cancelTask h.counted control.serial
    exact h.extend ⟨hextends.tasks, hextends.requests, .inr hloop, rfl, rfl, rfl, rfl⟩
      ⟨hcounted.next, hcounted.room, counted_erase h.counted id, hcounted.tasks⟩ rfl
  · exact h.extend ⟨fun _ t ht => ⟨t, ht, rfl⟩, fun _ r hr => ⟨r, hr, rfl⟩, .inr hloop, rfl,
      rfl, rfl, rfl⟩
      { h.counted with } rfl

theorem sound_takeDone (h : s.Sound) (id : SubscriptionId) (rest : List SubscriptionId) :
    (s.takeDone id rest).Sound :=
  h.extend ⟨fun _ t ht => ⟨t, ht, rfl⟩, fun _ r hr => ⟨r, hr, rfl⟩, .inl rfl, rfl, rfl, rfl,
    rfl⟩ ⟨h.counted.next, h.counted.room, counted_erase h.counted id, h.counted.tasks⟩ rfl

/-- `Unsubscribe` takes what the registry has under the id. -/
theorem sound_removeLoop (h : s.Sound) (hloop : s.loop = .unsubscribing id) :
    ({ s.removeTerminal id with loop := .closing (s.sessionAt id) } : SessionServer).Sound where
  counted := { h.counted with }
  placed :=
    have hplaced := placed_removeTerminal h.placed id
    { hplaced with }
  kept j hj := by
    rcases kept_removeTerminal (h.kept j hj) id with
      (hclosed | (htask | hrequest | hclosing | ⟨ks, hclosing, -⟩) | hheld | hat) | hat
    · exact .inl hclosed
    · exact .inr (.inl (.inl htask))
    · exact .inr (.inl (.inr (.inl hrequest)))
    · cases hloop.symm.trans hclosing
    · cases hloop.symm.trans hclosing
    · exact .inr (.inr (.inl hheld))
    · exact .inr (.inr (.inr hat))
    · refine .inr (.inl (.inr (.inr (.inl ?_))))
      show SessionLoop.closing (s.sessionAt id) = _
      rw [hat]

theorem sound_closeLoop {session : Option Nat} (h : s.Sound) (hloop : s.loop = .closing session) :
    ({ s.close session.toList with loop := .serving } : SessionServer).Sound where
  counted := { h.counted with }
  placed := { h.placed with }
  kept j hj := by
    rcases kept_close (h.kept j hj) session.toList with
      hclosed | (htask | hrequest | hclosing | ⟨ks, hclosing, -⟩) | hheld | hat
    · exact .inl hclosed
    · exact .inr (.inl (.inl htask))
    · exact .inr (.inl (.inr (.inl hrequest)))
    · obtain rfl : session = some j := SessionLoop.closing.inj (hloop.symm.trans hclosing)
      exact .inl (List.mem_append_right _ List.mem_cons_self)
    · cases hloop.symm.trans hclosing
    · exact .inr (.inr (.inl hheld))
    · exact .inr (.inr (.inr hat))

theorem sound_takeTerminals (h : s.Sound) (hloop : s.loop = .leaving) :
    ({ s with
      loop := .closingAll ((Assoc.values s.terminals).map (·.serial))
      terminals := ∅
      removed := s.removed ++ (Assoc.values s.terminals).map (·.serial) } :
        SessionServer).Sound where
  counted := { h.counted with }
  placed :=
    { entries := fun id e he => (by cases (AList.lookup_empty id).symm.trans he)
      removed := by
        intro j hj
        refine ⟨AList.lookup_empty _, ?_⟩
        rcases List.mem_append.mp hj with hj | hj
        · exact (h.placed.removed j hj).2
        · obtain ⟨e, he, rfl⟩ := List.mem_map.mp hj
          obtain ⟨id, hid⟩ := Assoc.exists_lookup_of_mem_values he
          obtain ⟨-, t, ht, hlisted⟩ := h.placed.entries id e hid
          exact ⟨t, ht, SessionPhase.past_of_listed hlisted⟩
      served := h.placed.served }
  kept j hj := by
    rcases h.kept j hj with
      hclosed | (htask | hrequest | hclosing | ⟨ks, hclosing, -⟩) | hheld | hat
    · exact .inl hclosed
    · exact .inr (.inl (.inl htask))
    · exact .inr (.inl (.inr (.inl hrequest)))
    · cases hloop.symm.trans hclosing
    · cases hloop.symm.trans hclosing
    · exact .inr (.inr (.inl hheld))
    · obtain ⟨e, he, rfl⟩ := sessionAt_eq hat
      exact .inr (.inl (.inr (.inr (.inr
        ⟨_, rfl, List.mem_map_of_mem (Assoc.mem_values he)⟩))))

theorem sound_closeOne {sessions : List Nat} (h : s.Sound) (hloop : s.loop = .closingAll sessions) :
    ({ s.close [session] with loop := .closingAll (sessions.erase session) } :
      SessionServer).Sound where
  counted := { h.counted with }
  placed := { h.placed with }
  kept j hj := by
    rcases kept_close (h.kept j hj) [session] with
      hclosed | (htask | hrequest | hclosing | ⟨ks, hclosing, hmem⟩) | hheld | hat
    · exact .inl hclosed
    · exact .inr (.inl (.inl htask))
    · exact .inr (.inl (.inr (.inl hrequest)))
    · cases hloop.symm.trans hclosing
    · obtain rfl : sessions = ks := SessionLoop.closingAll.inj (hloop.symm.trans hclosing)
      by_cases hsame : j = session
      · exact .inl (List.mem_append_right _ (hsame ▸ List.mem_cons_self))
      · exact .inr (.inl (.inr (.inr (.inr
          ⟨_, rfl, (List.mem_erase_of_ne hsame).mpr hmem⟩))))
    · exact .inr (.inr (.inl hheld))
    · exact .inr (.inr (.inr hat))

theorem sound_step {a : SessionAction} (h : s.Sound) (hok : s.HasFreshId a)
    (hstep : sessionServer.step s a = some s') : s'.Sound := by
  cases a with
  | subscribe request sent =>
    obtain ⟨hloop, hstep⟩ := Option.ite_none_right_eq_some.mp hstep
    obtain rfl := Option.some.inj hstep
    exact sound_subscribe h hloop hok
  | unsubscribe id =>
    obtain ⟨hloop, hstep⟩ := Option.ite_none_right_eq_some.mp hstep
    obtain rfl := Option.some.inj hstep
    exact sound_unsubscribe h hloop id
  | removeTerminal =>
    simp only [sessionServer] at hstep
    split at hstep
    · next id hloop =>
      obtain rfl := Option.some.inj hstep
      exact sound_removeLoop h hloop
    · cases hstep
  | closeTerminal sent =>
    simp only [sessionServer] at hstep
    split at hstep
    · next session hloop =>
      obtain rfl := Option.some.inj hstep
      -- when the answer cannot be sent, the loop is left after the close
      have hserving := sound_closeLoop h hloop
      have hleft := sound_leave hserving rfl
      split
      · exact hserving
      · exact hleft
    · cases hstep
  | takeDone =>
    simp only [sessionServer] at hstep
    split at hstep
    · obtain rfl := Option.some.inj hstep
      exact sound_takeDone h _ _
    · cases hstep
  | leave =>
    obtain ⟨hloop, hstep⟩ := Option.ite_none_right_eq_some.mp hstep
    obtain rfl := Option.some.inj hstep
    exact sound_leave h hloop
  | takeTerminals =>
    simp only [sessionServer] at hstep
    split at hstep
    · next hloop =>
      obtain rfl := Option.some.inj hstep
      exact sound_takeTerminals h hloop
    · cases hstep
  | closeOne session =>
    simp only [sessionServer] at hstep
    split at hstep
    · next sessions hloop =>
      obtain ⟨-, hstep⟩ := Option.ite_none_right_eq_some.mp hstep
      obtain rfl := Option.some.inj hstep
      exact sound_closeOne h hloop
    · cases hstep
  | request key request =>
    obtain ⟨⟨-, hfree⟩, hstep⟩ := Option.ite_none_right_eq_some.mp hstep
    obtain rfl := Option.some.inj hstep
    refine h.extend ⟨fun _ t ht => ⟨t, ht, rfl⟩, fun key' r hr => ⟨r, ?_, rfl⟩, .inl rfl,
      rfl, rfl, rfl, rfl⟩
      { h.counted with } rfl
    show Function.update s.requests key _ key' = _
    rw [Function.update_of_ne, hr]
    rintro rfl
    cases hfree.symm.trans hr
  | cancelRequest key =>
    obtain ⟨hloop, hstep⟩ := Option.ite_none_right_eq_some.mp hstep
    obtain rfl := Option.some.inj hstep
    refine h.extend ⟨fun _ t ht => ⟨t, ht, rfl⟩, fun key' r hr => ?_, .inl rfl,
      rfl, rfl, rfl, rfl⟩
      { h.counted with } rfl
    show ∃ r', Function.update s.requests key _ key' = some r' ∧ _
    by_cases hkey : key' = key
    · refine ⟨{ r with cancelled := true }, ?_, rfl⟩
      rw [hkey, Function.update_self, ← hkey, hr]
      rfl
    · exact ⟨r, (Function.update_of_ne hkey _ _).trans hr, rfl⟩
  | stepRequest key =>
    obtain ⟨r, hr, hstep⟩ := Option.bind_eq_some_iff.mp hstep
    exact sound_stepRequest h hr hstep
  | dropRequest key =>
    obtain ⟨r, hr, hstep⟩ := Option.bind_eq_some_iff.mp hstep
    exact sound_dropRequest h hr hstep
  | stepTask k ok =>
    obtain ⟨t, ht, hstep⟩ := Option.bind_eq_some_iff.mp hstep
    exact sound_stepTask h ht hstep

theorem sound_init : ({} : SessionServer).Sound where
  counted :=
    ⟨by decide, by decide, fun id control hc => (by cases (AList.lookup_empty id).symm.trans hc),
    fun _ _ h => (by cases h)⟩
  placed := ⟨fun id e he => (by cases (AList.lookup_empty id).symm.trans he),
    fun j hj => absurd hj List.not_mem_nil, fun r hr => absurd hr List.not_mem_nil⟩
  kept j hj := absurd hj List.not_mem_nil

/-- A task that has sent its completion has left nothing in the registry. -/
theorem Sound.unregistered (h : s.Sound) (hfinished : s.Finished k) : s.Unregistered k := by
  obtain ⟨t, ht, hphase⟩ := hfinished
  intro t' ht'
  obtain rfl := Option.some.inj (ht.symm.trans ht')
  cases hget : s.terminals.lookup t.id with
  | none => rfl
  | some e =>
    obtain ⟨hid, u, hu, hlisted⟩ := h.placed.entries _ e hget
    have hserial : e.serial = k := Nat.succ.inj (hid.symm.trans (h.counted.tasks k t ht).1)
    rw [hserial, ht, Option.some.injEq] at hu
    rw [← hu, hphase] at hlisted
    cases hlisted

theorem sound_of_reach (h : sessionServer.Reach HasFreshId s) : s.Sound :=
  h.invariant (fun _ hinit => hinit ▸ sound_init) fun _ _ _ hi hok hs => sound_step hi hok hs

/-- **Terminal sessions are not leaked.** While the ids have not wrapped around, a
subscription whose completion was sent has no entry in the registry, and the session that it
obtained is closed, or was taken from the registry by a party that is about to close it; and
no request is served by a session that had been removed when it looked. -/
theorem sessions_closed (h : sessionServer.Reach HasFreshId s) :
    (∀ k, s.Finished k →
      (k ∈ s.obtained → k ∈ s.closed ∨ s.Doomed k) ∧ s.Unregistered k) ∧ s.ServedLive := by
  have hsound := sound_of_reach h
  refine ⟨fun k hfinished => ⟨fun hk => ?_, hsound.unregistered hfinished⟩, hsound.placed.served⟩
  obtain ⟨t, ht, hphase⟩ := hfinished
  rcases hsound.kept k hk with hclosed | hdoomed | ⟨t', ht', hheld⟩ | hat
  · exact Or.inl hclosed
  · exact Or.inr hdoomed
  · obtain rfl := Option.some.inj (ht.symm.trans ht')
    rw [hphase] at hheld
    cases hheld
  · have hnone := hsound.unregistered ⟨t, ht, hphase⟩ t ht
    rw [(hsound.counted.tasks k t ht).1] at hnone
    obtain ⟨e, he, -⟩ := sessionAt_eq hat
    cases hnone.symm.trans he

instance decidableHasFreshId (s : SessionServer) : ∀ a, Decidable (s.HasFreshId a)
  | .subscribe _ _ => inferInstanceAs (Decidable (s.accepted + 1 < 2 ^ 64))
  | .unsubscribe _ | .removeTerminal | .closeTerminal _ | .takeDone | .leave | .takeTerminals
  | .closeOne _ | .request .. | .cancelRequest _ | .stepRequest _ | .dropRequest _
  | .stepTask .. => inferInstanceAs (Decidable True)

theorem session_closed_of_unsubscribe : ∃ s : SessionServer,
    ((s.tasks 0).map (·.phase) = some .finished ∧ s.obtained = [0] ∧ s.closed = [0] ∧
      s.served = [⟨0, []⟩]) ∧
    (∀ k, s.Finished k →
      (k ∈ s.obtained → k ∈ s.closed ∨ s.Doomed k) ∧ s.Unregistered k) ∧ s.ServedLive := by
  let start : SessionServer := {}
  let run : List SessionAction :=
    SessionAction.subscribe (.containerTerminal "A" 24 80 none none) true ::
    List.replicate 6 (SessionAction.stepTask 0 true) ++
    [SessionAction.request 1 (.containerTerminalInput 1 [0x6C]), .stepRequest 1, .unsubscribe 1,
      .removeTerminal, .closeTerminal true] ++
    List.replicate 5 (SessionAction.stepTask 0 true)
  have hrun : (sessionServer.exec start run).map
      (fun s => ((s.tasks 0).map (·.phase), s.obtained, s.closed, s.served)) =
      some (some .finished, [0], [0], [⟨0, []⟩]) := by decide +kernel
  have hfresh : sessionServer.AllSteps HasFreshId start run := by decide +kernel
  obtain ⟨s, hs, hend⟩ := Option.map_eq_some_iff.mp hrun
  have hreach : sessionServer.Reach HasFreshId s := Machine.reach_of_exec (.init rfl) hfresh hs
  exact ⟨s, by simpa only [Prod.mk.injEq] using hend, sessions_closed hreach⟩

/-! ## When the ids wrap around -/

/-- A terminal has come and gone, and after it `n` other subscriptions. -/
def cycledTasks (n : Nat) : Nat → Option SessionTask := fun k =>
  if k = 0 then some { id := 1, containerId := "A", phase := .finished }
  else if k ≤ n then some { id := k + 1, containerId := "", cancelled := true, phase := .streaming }
  else none

def cycled (n : Nat) : SessionServer where
  nextSubscriptionId := succId (n + 1)
  tasks := cycledTasks n
  accepted := n + 1

/-- A subscription that comes and goes. -/
def cycle (n : Nat) : List SessionAction :=
  [.subscribe .daemonStatus true, .unsubscribe (n + 2), .removeTerminal, .closeTerminal true]

theorem erase_insert_empty (id : SubscriptionId) (control : SubscriptionControl) :
    ((∅ : AList fun _ : SubscriptionId => SubscriptionControl).insert id control).erase id = ∅ := by
  apply AList.ext
  exact List.kerase_cons_eq rfl

theorem exec_cycle {n : Nat} (h : n + 2 < 2 ^ 64) :
    sessionServer.exec (cycled n) (cycle n) = some (cycled (n + 1)) := by
  have hid : succId (n + 1) = n + 2 := succId_of_lt h
  have hfree : (cycled n).freeId = n + 2 := hid
  have hsubscribe : sessionServer.step (cycled n) (.subscribe .daemonStatus true) =
      some { cycled n with
        nextSubscriptionId := succId (n + 2)
        subscriptions := (∅ : AList fun _ => SubscriptionControl).insert (n + 2) ⟨n + 1, 1⟩
        subscriptionTasks := 1
        accepted := n + 2
        tasks := Function.update (cycledTasks n) (n + 1)
          (some { id := n + 2, containerId := "", phase := .streaming }) } := by
    show some ((cycled n).accept .daemonStatus 1 true) = _
    unfold accept
    dsimp only
    rw [hfree]
    rfl
  -- the new task is cancelled as the earlier ones were
  have htasks : Function.update (Function.update (cycledTasks n) (n + 1)
      (some { id := n + 2, containerId := "", phase := .streaming })) (n + 1)
      (some { id := n + 2, containerId := "", cancelled := true, phase := .streaming }) =
      cycledTasks (n + 1) := by
    funext k
    rw [Function.update_idem, Function.update_apply]
    unfold cycledTasks
    by_cases hk : k = n + 1
    · rw [if_pos hk, if_neg (by omega), if_pos hk.le, hk]
    · have hle : k ≤ n + 1 ↔ k ≤ n := by omega
      simp only [if_neg hk, hle]
  rw [cycle, Machine.exec_cons hsubscribe]
  generalize hs : ({ cycled n with
    nextSubscriptionId := succId (n + 2)
    subscriptions := (∅ : AList fun _ => SubscriptionControl).insert (n + 2) ⟨n + 1, 1⟩
    subscriptionTasks := 1
    accepted := n + 2
    tasks := Function.update (cycledTasks n) (n + 1)
      (some { id := n + 2, containerId := "", phase := .streaming }) } : SessionServer) = s
  have hunsubscribe : sessionServer.step s (.unsubscribe (n + 2)) =
      some { cycled (n + 1) with loop := .unsubscribing (n + 2) } := by
    have hlookup : s.subscriptions.lookup (n + 2) = some ⟨n + 1, 1⟩ := by
      rw [← hs]
      exact AList.lookup_insert _
    have htask : s.tasks (n + 1) =
        some { id := n + 2, containerId := "", phase := .streaming } := by
      rw [← hs]
      exact Function.update_self ..
    have hserving : s.loop = .serving := by rw [← hs]; rfl
    show (if s.loop = .serving then some (s.unsubscribe (n + 2)) else none) = _
    rw [if_pos hserving, unsubscribe, hlookup]
    dsimp only [cancelTask]
    rw [htask, ← hs]
    dsimp only
    rw [erase_insert_empty, Option.map_some, htasks]
    rfl
  rw [Machine.exec_cons hunsubscribe]
  rfl

/-- As many subscriptions as there is room for. -/
theorem exec_cycles : ∀ m n : Nat, n + m + 1 < 2 ^ 64 →
    sessionServer.exec (cycled n) ((List.range' n m).flatMap cycle) = some (cycled (n + m))
  | 0, _, _ => rfl
  | m + 1, n, h => by
      have hnext := exec_cycles m (n + 1) (by omega)
      rw [List.range'_succ, List.flatMap_cons, Machine.exec_append, exec_cycle (by omega),
        Option.bind_some, hnext, Nat.add_right_comm, Nat.add_assoc]

/-- A session can still be open, about to be closed, when the completion of its subscription
was sent; and the id of a finished subscription comes up again after `2 ^ 64 - 1` others. -/
theorem session_open_after_completion :
    (∃ s, sessionServer.Reach (fun _ _ => True) s ∧
      s.Finished 0 ∧ 0 ∈ s.obtained ∧ 0 ∉ s.closed) ∧
    ∃ s, sessionServer.Reach (fun _ _ => True) s ∧ s.Finished 0 ∧ ¬ s.Unregistered 0 := by
  let start : SessionServer := {}
  let terminal : SessionAction := .subscribe (.containerTerminal "A" 24 80 none none) true
  let opens : List SessionAction := terminal :: List.replicate 6 (SessionAction.stepTask 0 true) ++
    [SessionAction.unsubscribe 1, .removeTerminal] ++
      List.replicate 5 (SessionAction.stepTask 0 true)
  let begins : List SessionAction :=
    terminal :: SessionAction.stepTask 0 false ::
      List.replicate 4 (SessionAction.stepTask 0 true) ++ [SessionAction.takeDone]
  let others : List SessionAction := (List.range' 0 (2 ^ 64 - 2)).flatMap cycle
  let ends : List SessionAction := terminal :: List.replicate 6 (.stepTask (2 ^ 64 - 1) true)
  have hopen : (sessionServer.exec start opens).map
      (fun s => ((s.tasks 0).map (·.phase), s.obtained, s.closed)) =
      some (some .finished, [0], []) := by decide +kernel
  have hend : (sessionServer.exec (cycled (2 ^ 64 - 2)) ends).map
      (fun s => (s.tasks 0, (s.terminals.lookup 1).isSome)) =
      some (some { id := 1, containerId := "A", phase := .finished }, true) := by decide +kernel
  have hbegin : sessionServer.exec start begins = some (cycled 0) := by
    obtain ⟨tasks, hbegin, htasks⟩ : ∃ tasks, sessionServer.exec start begins =
        some { cycled 0 with tasks } ∧ tasks = cycledTasks 0 := by
      refine ⟨_, rfl, funext fun k => ?_⟩
      cases k with
      | zero => rfl
      | succ k => rfl
    rw [hbegin, htasks]
    rfl
  constructor
  · obtain ⟨s, hs, hend⟩ := Option.map_eq_some_iff.mp hopen
    simp only [Prod.mk.injEq] at hend
    obtain ⟨hphase, hobtained, hclosed⟩ := hend
    refine ⟨s, Machine.reach_of_run (s := start) rfl hs, Option.map_eq_some_iff.mp hphase, ?_, ?_⟩
    · rw [hobtained]
      exact List.mem_cons_self
    · rw [hclosed]
      exact List.not_mem_nil
  · obtain ⟨s, hs, hend⟩ := Option.map_eq_some_iff.mp hend
    simp only [Prod.mk.injEq] at hend
    obtain ⟨htask, hentry⟩ := hend
    have hrun : sessionServer.exec start ((begins ++ others) ++ ends) = some s := by
      rw [Machine.exec_append, Machine.exec_append, hbegin, Option.bind_some,
        exec_cycles _ _ (by decide)]
      exact hs
    refine ⟨s, Machine.reach_of_run (s := start) rfl hrun, ⟨_, htask, rfl⟩, fun hnone => ?_⟩
    rw [hnone _ htask] at hentry
    cases hentry

end SessionServer

end TuxStack.Ipc
