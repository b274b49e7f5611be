/-
  File:      LocalSend/WebRtc/Peers.lean
  Subject:   THE TWO PEERS TOGETHER. `send_offer` on the left, `accept_offer` on the right, and a
             reliable ordered channel in each direction.

  * `Peers`, `Leads` -- their joint states, and what some interleaving leads to;
  * `Send.ended_stays`, `Accept.ended_stays` -- a task that has ended stays as it is;
  * `Send.ended_unique` -- so the sender ends in one state, whatever the interleaving;
  * `openSender`, `openReceiver` -- two peers that take any key, for the inputs the results are
    tried on.
-/
import LocalSend.WebRtc.Accept
import LocalSend.WebRtc.JsonWire
import LocalSend.WebRtc.Send

namespace LocalSend.WebRtc

open Lib

variable {w : Wire} {cs : Send.Config} {cr : Accept.Config}

abbrev Peers := Net Message (Batch Message Send.State) (Batch Message Accept.State)

/-- **Some interleaving** of the two tasks leads from one joint state to the other. -/
def Leads (w : Wire) (cs : Send.Config) (cr : Accept.Config) : Peers → Peers → Prop :=
  Net.Reaches (Send.sendOffer w cs) (Accept.acceptOffer w cr)

/-! ## 1. Ended tasks -/

variable {n n' a b : Peers}

/-- **A sender that has ended stays as it is.** -/
theorem Send.ended_stays (hr : Leads w cs cr n n') {result : Except Error Unit}
    (h : n.left.state.phase = .ended result) : n'.left.state = n.left.state := by
  refine Net.Reaches.keepsLeft (I := fun b => b.state = n.left.state) (fun b b' hb hnext => ?_) hr rfl
  rcases Process.batched_next hnext with hsame | ⟨k, m, hreact, _⟩ | hreact
  · rw [hsame]
    exact hb
  · simp [Send.react, hb, h] at hreact
  · simp [Send.react, hb, h] at hreact

/-- **A receiver that has ended stays as it is.** -/
theorem Accept.ended_stays (hr : Leads w cs cr n n') {result : Except Error Unit}
    (h : n.right.state.phase = .ended result) : n'.right.state = n.right.state := by
  refine Net.Reaches.keepsRight (I := fun b => b.state = n.right.state) (fun b b' hb hnext => ?_)
    hr rfl
  rcases Process.batched_next hnext with hsame | ⟨k, m, hreact, _⟩ | hreact
  · rw [hsame]
    exact hb
  · simp [Accept.react, hb, h] at hreact
  · simp [Accept.react, hb, h] at hreact

/-- **The sender ends in one state**, whatever the interleaving. -/
theorem Send.ended_unique (ha : Leads w cs cr n a) {ra : Except Error Unit}
    (hea : a.left.state.phase = .ended ra) (hb : Leads w cs cr n b) {rb : Except Error Unit}
    (heb : b.left.state.phase = .ended rb) : a.left.state = b.left.state := by
  obtain ⟨c, hac, hbc⟩ := Net.network_confluent ha hb
  rw [← Send.ended_stays hac hea, Send.ended_stays hbc heb]

/-! ## 2. Two peers -/

/-- A peer that expects no particular key. Its own tokens have the form of the real ones. -/
def openAuth (pin : Option PinConfig) : RTCAuthConfig where
  signingKey nonce := some ("sha256.AAAA." ++ Base64.encode nonce ++ ".ed25519.AAAA")
  expectingPublicKey := none
  pin := pin

def openSender (pin : Option PinConfig) (files : List FileDto) : Send.Config where
  auth := openAuth pin
  localNonce := ⟨List.replicate 32 1, List.length_replicate⟩
  files := files
  parsePublicKey _ _ := none
  pairAnswer := .refused

/-- A file of three bytes. -/
def sampleFile (id : String) : FileDto := ⟨id, id ++ ".txt", 3, "text/plain", none, none, none⟩

/-- Its app takes every block. -/
def openReceiver (pin : Option PinConfig) (selection : Accept.Selection) : Accept.Config where
  auth := openAuth pin
  localNonce := ⟨List.replicate 32 2, List.length_replicate⟩
  fileToken id := "token of " ++ id
  selection := selection
  takes _ := true

end LocalSend.WebRtc
