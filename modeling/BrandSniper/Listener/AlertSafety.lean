import BrandSniper.Listener.AlertLane

/-!
# Alerts go out once

Every lane of a dispatcher keeps its invariant, whatever the other lanes do,
and the memory of alerted keys holds those of the alerts that were offered.
-/

namespace BrandSniper.Alerts

open Kit TaskSupervisor

variable {R : Type}

/-! ## The dispatcher -/

section
variable {S : AlertSetting R} {s s' : AlertDispatcher}

structure AlertDispatcher.Inv (S : AlertSetting R) (s : AlertDispatcher) : Prop where
  lanes : ∀ lane ∈ s.lanes, lane.Inv S
  offered : ∀ lane ∈ s.lanes,
    (lane.log.filterMap LaneMark.offered).reverse = s.submitted.map Prod.fst
  alerted : (alertedKeys s.submitted).dedup.length ≤ alertedMemorySize →
    (∀ key, s.alerted.contains key = true ↔ key ∈ alertedKeys s.submitted) ∧
    s.submitted.Pairwise fun earlier later =>
      (later.1.buy later.2).keys.1 ∉ (earlier.1.buy earlier.2).keyTexts

theorem alertedKeys_concat (submitted : List (TradeAlert × Date)) (alert : TradeAlert) (today : Date) :
    alertedKeys (submitted ++ [(alert, today)]) = alertedKeys submitted ++ (alert.buy today).keyTexts := by
  rw [alertedKeys, List.flatMap_append, List.flatMap_singleton]
  rfl

theorem offered_submit (lane : Lane) (alert : TradeAlert) :
    ((lane.submit alert).log.filterMap LaneMark.offered).reverse
      = (lane.log.filterMap LaneMark.offered).reverse ++ [alert] := by
  rw [Lane.submit]
  dsimp only
  split
  · exact List.reverse_cons
  · exact List.reverse_cons

/-- An alert whose key is new leaves its keys alerted. -/
theorem AlertDispatcher.Inv.remember (h : s.Inv S) {alert : TradeAlert} {today : Date}
    (hnew : ¬ s.alerted.contains (alert.buy today).keys.1 = true)
    (hfits : (alertedKeys (s.submitted ++ [(alert, today)])).dedup.length ≤ alertedMemorySize) :
    (∀ key, (remember s.alerted (alert.buy today)).contains key = true ↔
        key ∈ alertedKeys (s.submitted ++ [(alert, today)])) ∧
      (s.submitted ++ [(alert, today)]).Pairwise fun earlier later =>
        (later.1.buy later.2).keys.1 ∉ (earlier.1.buy earlier.2).keyTexts := by
  have hkeys := alertedKeys_concat s.submitted alert today
  have hless : (alertedKeys s.submitted).dedup.length ≤ alertedMemorySize := by
    refine le_trans (List.Subperm.length_le ((List.nodup_dedup _).subperm ?_)) hfits
    intro key hkey
    rw [List.mem_dedup] at hkey ⊢
    rw [hkeys]
    exact List.mem_append_left _ hkey
  obtain ⟨halerted, hpairs⟩ := h.alerted hless
  constructor
  · intro key
    rw [AlertDispatcher.remember, contains_rememberBuy hfits ?_ ?_, halerted, hkeys, List.mem_append]
    · intro k hk
      rw [hkeys]
      exact List.mem_append_left _ ((halerted k).mp (OrderedDict.contains_iff_mem.mpr hk))
    · intro k hk
      rw [hkeys]
      exact List.mem_append_right _ hk
  · refine List.pairwise_append.mpr ⟨hpairs, List.pairwise_singleton _ _, ?_⟩
    intro earlier hearlier later hlater hrepeat
    rw [List.mem_singleton.mp hlater] at hrepeat
    exact hnew ((halerted _).mpr (List.mem_flatMap.mpr ⟨earlier, hearlier, hrepeat⟩))

theorem AlertDispatcher.Inv.submit (h : s.Inv S) (alert : TradeAlert) (today : Date) :
    (s.submit alert today).Inv S := by
  rw [AlertDispatcher.submit]
  split
  · exact h
  · split
    · exact h
    · rename_i hnew
      refine ⟨?_, ?_, h.remember hnew⟩
      · intro lane hlane
        obtain ⟨before, hbefore, rfl⟩ := List.mem_map.mp hlane
        exact (h.lanes before hbefore).submit alert
      · intro lane hlane
        obtain ⟨before, hbefore, rfl⟩ := List.mem_map.mp hlane
        rw [offered_submit, h.offered before hbefore, List.map_append]
        rfl

theorem offered_attempt (lane : Lane) (job attempts : Nat) :
    (lane.attempt S job attempts).log.filterMap LaneMark.offered
      = lane.log.filterMap LaneMark.offered := by
  rw [Lane.attempt]
  split <;> rfl

theorem offered_looked (lane : Lane) (job : Nat) (c : Channel) :
    (lane.looked job c).log.filterMap LaneMark.offered = lane.log.filterMap LaneMark.offered := by
  rw [Lane.looked]
  split <;> rfl

/-- Only a submission offers an alert. -/
theorem offered_step {lane lane' : Lane} {channel : AlertChannel R} {e : LaneEvent R}
    (hstep : lane.step S channel e = some lane') (he : ∀ alert, e ≠ .submit alert) :
    lane'.log.filterMap LaneMark.offered = lane.log.filterMap LaneMark.offered := by
  cases e with
  | submit alert => exact absurd rfl (he alert)
  | take =>
      obtain ⟨pool, -, rfl⟩ := Option.map_eq_some_iff.mp hstep
      split
      · exact offered_attempt _ _ _
      · rfl
  | acquire now =>
      rw [Lane.step] at hstep
      split at hstep
      · obtain ⟨c, -, rfl⟩ := Option.map_eq_some_iff.mp hstep
        exact offered_looked _ _ _
      · cases hstep
  | wake now =>
      rw [Lane.step] at hstep
      split at hstep
      · obtain ⟨c, -, rfl⟩ := Option.map_eq_some_iff.mp hstep
        exact offered_looked _ _ _
      · cases hstep
  | post now =>
      rw [Lane.step] at hstep
      split at hstep
      · obtain ⟨c, -, rfl⟩ := Option.map_eq_some_iff.mp hstep
        rfl
      · cases hstep
  | reply now status reply =>
      rw [Lane.step] at hstep
      split at hstep
      · rw [Lane.replied] at hstep
        split at hstep
        · obtain ⟨c, -, rfl⟩ := Option.map_eq_some_iff.mp hstep
          exact offered_attempt _ _ _
        · cases hstep
          rfl
      · cases hstep
  | disconnected =>
      rw [Lane.step] at hstep
      split at hstep
      · cases hstep
        rfl
      · cases hstep
  | recorded =>
      rw [Lane.step] at hstep
      split at hstep
      · obtain ⟨pool, -, rfl⟩ := Option.map_eq_some_iff.mp hstep
        rfl
      · cases hstep
  | raised =>
      obtain ⟨-, hstep⟩ := Option.ite_none_right_eq_some.mp hstep
      obtain ⟨pool, -, rfl⟩ := Option.map_eq_some_iff.mp hstep
      rfl
  | closing e =>
      obtain ⟨-, hstep⟩ := Option.ite_none_right_eq_some.mp hstep
      obtain ⟨pool, -, rfl⟩ := Option.map_eq_some_iff.mp hstep
      rfl
  | cancelled =>
      obtain ⟨pool, -, rfl⟩ := Option.map_eq_some_iff.mp hstep
      rfl

theorem AlertDispatcher.Inv.step (h : s.Inv S) {e : AlertEvent R}
    (hstep : s.step S e = some s') : s'.Inv S := by
  cases e with
  | submit alert today =>
      cases hstep
      exact h.submit alert today
  | lane index e =>
      rw [AlertDispatcher.step] at hstep
      split at hstep
      · rename_i channel lane hchannel hlane
        obtain ⟨hmay, hstep⟩ := Option.ite_none_right_eq_some.mp hstep
        obtain ⟨lane', hlane', rfl⟩ := Option.map_eq_some_iff.mp hstep
        have hmem := List.mem_of_getElem? hlane
        have hnot : ∀ alert, e ≠ .submit alert := by
          rintro alert rfl
          cases hmay
        refine ⟨?_, ?_, h.alerted⟩
        · intro other hother
          rcases List.mem_or_eq_of_mem_set hother with hold | rfl
          · exact h.lanes other hold
          · exact (h.lanes lane hmem).step hlane'
        · intro other hother
          rcases List.mem_or_eq_of_mem_set hother with hold | rfl
          · exact h.offered other hold
          · rw [offered_step hlane' hnot]
            exact h.offered lane hmem
      · cases hstep

end

end BrandSniper.Alerts
