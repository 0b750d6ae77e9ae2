import TrafficPrioritizer.DhcpEngine.Exclusivity

/-! What a message that is refused or not answered leaves behind. The lookup assigns a free
slot to a client that has none before the answer is decided, and a refusal does not take
the assignment back. -/

namespace Hpgtp
namespace DhcpEngine

def RefusalWithoutEffect (d : DhcpEngine) (msg : DhcpMessage) (now commitNow : Int) : Prop :=
  (∀ response ∈ (d.handleDhcpRequest msg now commitNow).2, response.type = 6) →
    (d.handleDhcpRequest msg now commitNow).1.leases = d.leases

def RefusedSlot (d : DhcpEngine) (msg : DhcpMessage) (now : Int) : Prop :=
  ∃ r i, msg.decode = some r ∧ d.NoLease r.mac ∧ d.FirstFree now i ∧
    (r.msgType = 1 ∧ (d.leases i).ip.raw = 0 ∨ r.msgType = 3 ∧ (d.leases i).ip ≠ r.requested)

-- Unification must not run the search over the slots of the pool.
attribute [local irreducible] firstLease

section
variable {d : DhcpEngine} {msg : DhcpMessage} {now commitNow : Int}

theorem FirstFree.leases_assignLease_ne {mac : Mac} {i : Fin maxPoolSize}
    (hfree : d.FirstFree now i) (hnone : d.NoLease mac) :
    (d.assignLease i mac now).leases ≠ d.leases := by
  intro heq
  have hslot := congrFun heq i
  rw [assignLease_self] at hslot
  have hact : (d.leases i).active = true := congrArg DhcpLease.active hslot.symm
  exact hnone i hfree.inPool hact (congrArg DhcpLease.mac hslot.symm)

theorem RefusedSlot.effect (h : d.RefusedSlot msg now) (commitNow : Int) :
    ¬ d.RefusalWithoutEffect msg now commitNow := by
  obtain ⟨r, i, hdec, hnone, hfree, hrefused⟩ := h
  have hfound := hfree.findOrAssignLease hnone
  intro hnoeffect
  unfold RefusalWithoutEffect at hnoeffect
  refine hfree.leases_assignLease_ne hnone ?_
  rcases hrefused with ⟨hdisc, hzero⟩ | ⟨hreq, hdiffers⟩
  · rw [handle_discover commitNow hdec hdisc hfound, if_neg (not_not.mpr hzero)] at hnoeffect
    exact hnoeffect nofun
  · rw [handle_request commitNow hdec hreq hfound, if_neg hdiffers] at hnoeffect
    refine hnoeffect fun response hresp => ?_
    rw [← Option.some.inj hresp]
    rfl

theorem RefusalWithoutEffect.of_nak {x : Received}
    (h : d.RefusalWithoutEffect x.msg x.now x.commitNow)
    (htype : (d.receive x).2.map DhcpResponse.type = some 6) :
    (d.receive x).1.leases = d.leases := by
  refine h fun response hresp => ?_
  obtain ⟨response', hresp', htype'⟩ := Option.map_eq_some_iff.mp htype
  exact Option.some.inj (hresp.symm.trans hresp') ▸ htype'

theorem not_refusal {engine : DhcpEngine} {response : DhcpResponse} {P : Prop}
    (hcall : d.handleDhcpRequest msg now commitNow = (engine, some response))
    (htype : response.type ≠ 6) :
    (∀ response ∈ (d.handleDhcpRequest msg now commitNow).2, response.type = 6) → P := by
  rw [hcall]
  exact fun hnak => absurd (hnak response rfl) htype

end

/-- A message that is refused or not answered leaves the lease table alone exactly when no slot
has been assigned on the way. -/
theorem refusal_without_effect_iff (d : DhcpEngine) (msg : DhcpMessage) (now commitNow : Int) :
    d.RefusalWithoutEffect msg now commitNow ↔ ¬ d.RefusedSlot msg now := by
  refine ⟨fun hnoeffect hslot => hslot.effect commitNow hnoeffect, fun hnot hnak => ?_⟩
  by_cases hother : ∀ r, msg.decode = some r → r.msgType ≠ 1 ∧ r.msgType ≠ 3
  · rw [handle_ignored now commitNow hother]
  push Not at hother
  obtain ⟨r, hdec, hmsg⟩ := hother
  generalize hfound : d.findOrAssignLease r.mac now = found
  obtain ⟨d', ip⟩ := found
  -- an answer that is not a NAK is excluded, so what is left is what the lookup did
  have hrefused : (r.msgType = 1 ∧ ip.raw = 0 ∨ r.msgType = 3 ∧ ip ≠ r.requested) ∧
      (d.handleDhcpRequest msg now commitNow).1 = d' := by
    by_cases hdisc : r.msgType = 1
    · have hcall := handle_discover commitNow hdec hdisc hfound
      split_ifs at hcall with hzero
      · exact not_refusal hcall (by simp [sendResponse]) hnak
      · exact ⟨.inl ⟨hdisc, not_not.mp hzero⟩, congrArg Prod.fst hcall⟩
    · have hcall := handle_request commitNow hdec (hmsg hdisc) hfound
      split_ifs at hcall with hagree
      · exact not_refusal hcall (by simp [sendResponse]) hnak
      · exact ⟨.inr ⟨hmsg hdisc, hagree⟩, congrArg Prod.fst hcall⟩
  rw [hrefused.2]
  rcases findOrAssignLease_cases d r.mac now with ⟨i, -, -, -, heq⟩ | ⟨hnone, i, hfree, heq⟩ |
    ⟨-, -, heq⟩
  all_goals
    obtain ⟨rfl, rfl⟩ := Prod.mk.inj (heq.symm.trans hfound)
  · rfl
  · exact absurd ⟨r, i, hdec, hnone, hfree, hrefused.1⟩ hnot
  · rfl

/-- A client asks for an address outside of the pool: it is refused, and has a lease on the first
address of the pool. -/
theorem refusal_takes_a_slot :
    let x := receivedAt (makeDhcpRequest selfTestMac (octets 192 168 1 200)) 0
    let first : Fin maxPoolSize := ⟨0, by decide⟩
    smallPool.Reachable ∧ (smallPool.receive x).2.map DhcpResponse.type = some 6 ∧
      (smallPool.leases first).active = false ∧
      (smallPool.receive x).1.leases first =
        ⟨selfTestMac, octets 192 168 1 100, true, 60000000000⟩ ∧
      ¬ smallPool.RefusalWithoutEffect x.msg x.now x.commitNow := by
  intro x first
  have htype : (smallPool.receive x).2.map DhcpResponse.type = some 6 := by decide +kernel
  have hbefore : (smallPool.leases first).active = false := by decide +kernel
  have hafter : (smallPool.receive x).1.leases first =
      ⟨selfTestMac, octets 192 168 1 100, true, 60000000000⟩ := by decide +kernel
  refine ⟨⟨_, _, _, [], rfl⟩, htype, hbefore, hafter, fun hnoeffect => ?_⟩
  rw [hnoeffect.of_nak htype] at hafter
  exact Bool.false_ne_true (hbefore.symm.trans (congrArg DhcpLease.active hafter))

end DhcpEngine
end Hpgtp
