import A2ZCore.Lib.Once
import A2ZCore.Omnichannel.References

/-!
# Sends inside a tenant

A send goes to the customer of the message, over an active connection of its org, with the secret that
is stored for the connection. The secret is merged over a dict that holds the id of the org, and by the
adapters' convention every bundle names the org it is for: a key of that name in the secret, which an
admin of the org chooses, takes the place of the id. So the credentials name the org of the message as
long as no secret of an active connection names another.

## Main definitions

* `OwnSecrets` — no secret of an active connection names another org
* `Call.StaysWithin` — a send that stays inside its tenant

## Main results

* `staysWithin_run` — what is sent in a run stays inside its tenant
-/

namespace A2ZCore.Omnichannel

open Interaction Interaction.Contract Messaging

/-- No secret of an active connection names an org other than the connection's. -/
def OwnSecrets (w : World) : Prop :=
  ∀ c ∈ w.db.connections.rows, c.status = "active" → ∀ fields,
    w.core.secrets c.secret.name = some (.obj fields) → ∀ field ∈ fields, field.1 = "org_id" →
      field.2 = .str c.orgId

/-- What is sent is a message of an org, to the customer it is for, over an active connection of the org
on the channel, with what is stored for the connection, and the credentials name the org. -/
def Call.StaysWithin (registry : Registry) (w : World) : Call → Prop
  | .sendOutbound messageId channelType recipient _ credentials =>
    ∃ connection ∈ w.db.connections.rows, connection.channelType = channelType ∧
      connection.status = "active" ∧ w.db.Routes messageId connection.orgId channelType recipient ∧
        w.Credits registry connection credentials ∧
          credentials.lookup "org_id" = some (.str connection.orgId)
  | _ => True

/-- What is merged over a dict leaves a key that it has only with the same value. -/
theorem lookup_updateCredentials_of_same {d credentials fields : List (String × Json)} {key : String}
    {value : Json} (h : updateCredentials d (.obj fields) = .ok credentials)
    (hd : d.lookup key = some value) (hfields : ∀ field ∈ fields, field.1 = key → field.2 = value) :
    credentials.lookup key = some value := by
  cases h
  induction fields generalizing d with
  | nil => exact hd
  | cons field fields ih =>
    rw [List.foldl_cons]
    refine ih ?_ fun f hf => hfields f (List.mem_cons_of_mem _ hf)
    rw [Json.lookup_set]
    split
    · next hkey => rw [hfields field List.mem_cons_self hkey.symm]
    · exact hd

/-- A send with the secret of its connection names the org, where the secret names no other. -/
theorem Call.Reaches.staysWithin {registry : Registry} {w : World} {c : Call}
    (hsecrets : OwnSecrets w) (h : c.Reaches registry w) : c.StaysWithin registry w := by
  cases c with
  | sendOutbound messageId channelType recipient content credentials =>
    obtain ⟨connection, hmem, hchannel, hactive, hroutes, hcredits⟩ := h
    refine ⟨connection, hmem, hchannel, hactive, hroutes, hcredits, ?_⟩
    obtain ⟨adapter, _, hmerged⟩ := hcredits
    split at hmerged
    · obtain ⟨fields, hstored, hupdate, _⟩ := hmerged
      exact lookup_updateCredentials_of_same hupdate rfl
        (hsecrets connection hmem hactive fields hstored)
    · rw [hmerged]
      rfl
  | _ => trivial

theorem Linked.ownSecrets {w w' : World} (h : Linked True w w') (hw : OwnSecrets w) :
    OwnSecrets w' := by
  unfold OwnSecrets
  rw [h.connections trivial, h.secrets trivial]
  exact hw

/-- **Sends stay inside the tenant**, in every run from a state in which no secret of an active
connection names another org. -/
theorem staysWithin_run (registry : Registry) (as : List Activity) {w : World} (hstart : OneOrg w.db)
    (hcoherent : w.Coherent) (horgs : ∀ c ∈ w.db.connections.rows, ':' ∉ c.orgId.toList)
    (hsecrets : OwnSecrets w) (schedule : List (ℕ × Choice)) :
    Pool.Along Call.answer (fun c _ w => c.StaysWithin registry w) (activities registry as w)
      schedule := by
  have horder : w.InOrder True := ⟨hstart, fun _ => hcoherent, fun _ => horgs⟩
  have halong := along_activities registry as horder schedule
  have hown : Pool.Along Call.answer (fun _ _ v => OwnSecrets v) (activities registry as w) schedule :=
    Pool.along_invariant (J := OwnSecrets) (halong.mono fun _ _ _ h => h.1.ownSecrets) hsecrets
  exact (halong.and hown).mono fun _ _ _ h => (h.1.2 trivial).staysWithin h.2

/-! ### A secret with an org -/

theorem staysWithin_run_inbox : Pool.Along Call.answer (fun c _ w => c.StaysWithin whatsappRegistry w)
      (activities whatsappRegistry conversationActivities inboxWorld) replyThenWork ∧
    ((activities whatsappRegistry conversationActivities inboxWorld).run Call.answer
      replyThenWork).world.sends.map (·.recipient) = ["4915"] := by
  refine ⟨staysWithin_run whatsappRegistry conversationActivities oneOrg_inboxDb
    (fun s _ expiresAt value h => (by cases h)) (fun c hc => ?_) (fun c hc _ fields hstored => ?_) _,
    by decide +kernel⟩
  · obtain rfl := List.mem_singleton.mp hc
    decide
  · obtain rfl := List.mem_singleton.mp hc
    have hfields : fields = [("access_token", .str "token"), ("phone_number_id", .str "1555")] := by
      have hsecret : inboxWorld.core.secrets "a2z/org/omnichannel/whatsapp" = some (.obj fields) := hstored
      cases hsecret
      rfl
    subst hfields
    simp

/-- The deployment of an org whose admin has put another org's id into the secret. -/
def rivalWorld : World :=
  { inboxWorld with
    core := { Core.World.initial with
      secrets := fun name => if name = "a2z/org/omnichannel/whatsapp" then
        some (.obj [("access_token", .str "token"), ("phone_number_id", .str "1555"),
          ("org_id", .str "rival")]) else none } }

/-- The credentials of a send name the org of no connection. -/
def NamesNone : Call → Choice → World → Bool
  | .sendOutbound _ _ _ _ credentials, _, w => match credentials.lookup "org_id" with
    | some (.str orgId) => w.db.connections.rows.all fun c => c.orgId != orgId
    | _ => true
  | _, _, _ => false

theorem Call.StaysWithin.not_namesNone {registry : Registry} {c : Call} {w : World}
    (h : c.StaysWithin registry w) (x : Choice) : NamesNone c x w = false := by
  cases c with
  | sendOutbound messageId channelType recipient content credentials =>
    obtain ⟨connection, hmem, _, _, _, _, hnames⟩ := h
    rw [NamesNone, hnames, List.all_eq_false]
    exact ⟨connection, hmem, by simp⟩
  | _ => rfl

/-- A secret can make a send name another org. -/
theorem not_staysWithin :
    ¬∀ (registry : Registry) (as : List Activity) (w : World), OneOrg w.db → w.Coherent →
      (∀ c ∈ w.db.connections.rows, ':' ∉ c.orgId.toList) → ∀ schedule : List (ℕ × Choice),
        Pool.Along Call.answer (fun c _ w => c.StaysWithin registry w) (activities registry as w)
          schedule := by
  intro h
  have halong := h whatsappRegistry conversationActivities rivalWorld oneOrg_inboxDb
    (fun s _ expiresAt value hentry => (by cases hentry)) (fun c hc => (by
      obtain rfl := List.mem_singleton.mp hc
      decide)) replyThenWork
  have hzero := Pool.count_eq_zero (P := NamesNone) (halong.mono fun c x w h => h.not_namesNone x)
  have hone : (activities whatsappRegistry conversationActivities rivalWorld).count Call.answer NamesNone
      replyThenWork = 1 := by
    decide +kernel
  omega

end A2ZCore.Omnichannel
