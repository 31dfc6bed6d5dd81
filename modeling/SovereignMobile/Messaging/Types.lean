import Mathlib.Logic.Function.Basic

/-! # Data of the messaging service

The records of `types/messaging.ts`, `NativeMessaging.ts` and `MessagingMockData.ts` that
`MessagingService.ts` works on. Ciphertexts are opaque: an envelope carries what the native library
can recover from it (`gen`, `body`) next to its metadata, and a number `uid` that stands for its
bytes. -/

namespace Messaging

abbrev Did := String

/-- The two directions of a peer; each has its own native session. -/
inductive SessionDir where
  | send
  | recv
deriving DecidableEq

/-- `ContentTypeTag` -/
inductive ContentTypeTag where
  | text
  | image
  | file
  | voice
  | keyExchange
  | keyRatchet
  | readReceipt
  | groupInvite
deriving DecidableEq

/-- What a body decodes to: the JSON of a receipt (with the `uid` of the envelope whose opening it
    acknowledges) or anything else. -/
inductive Payload where
  | text (s : String)
  | receipt (seq epoch acked : Nat)
deriving DecidableEq

/-- A plaintext. `marked` says that it starts with `RECEIPT_MARKER`, whose control bytes no user can
    type; `payload` is what follows the marker. -/
structure Body where
  marked : Bool
  payload : Payload
deriving DecidableEq

/-- What one `initiateSession` starts: the key material that a session and its peer share, here
    named by the device that asked for it, the DID it asked for and a number. -/
structure Gen where
  owner : Did
  peer : Did
  n : Nat
deriving DecidableEq

/-- An envelope: the fields `envelopeDescribe` shows, the generation of the session it was sealed
    with (for a `KeyExchange`: the one it announces), and its plaintext. -/
structure Envelope where
  uid : Nat
  senderDid : Did
  recipientDid : Did
  contentType : ContentTypeTag
  timestamp : Nat
  epoch : Nat
  sequence : Nat
  gen : Gen
  body : Body
deriving DecidableEq

/-- A native session, and what `serializeSession` writes of it. `opened` are the positions
    `(epoch, sequence)` that it has opened: it opens none of them again. -/
structure Session where
  remoteDid : Did
  gen : Gen
  counter : Nat
  epoch : Nat
  opened : List (Nat × Nat)
deriving DecidableEq

/-- `getSessionInfo`, as far as it is read. -/
structure SessionInfo where
  counter : Nat
  epoch : Nat
deriving DecidableEq

inductive MessageStatus where
  | pending
  | sent
  | delivered
  | read
  | failed
deriving DecidableEq

/-- The relay's answer to `/msg/send`. -/
inductive SendStatus where
  | delivered
  | relayed
  | queued
deriving DecidableEq

inductive Direction where
  | sent
  | received
deriving DecidableEq

/-- The kinds of rows the native path writes. -/
inductive MessageContentType where
  | text
  | undecryptable
deriving DecidableEq

/-- `undecryptable-${did}-${epoch}-${sequence}`, `recv-${timestamp}-${sequence}` and
    `local-${Date.now()}-${random}`. -/
inductive MessageId where
  | undecryptable (did : Did) (epoch sequence : Nat)
  | recv (timestamp sequence : Nat)
  | sentLocally (now random : Nat)
deriving DecidableEq

/-- A row of a conversation. `origin` is history: the envelope the row was written for. -/
structure LocalMessage where
  id : MessageId
  direction : Direction
  contentType : MessageContentType
  body : Body
  timestamp : Nat
  epoch : Nat
  sequence : Nat
  status : MessageStatus
  origin : Envelope
deriving DecidableEq

structure Contact where
  username : String
  dilithiumPk : String
deriving DecidableEq

/-- An entry of the pending-decrypt buffer; `ticket` is history: the number of the push. -/
structure PendingDecrypt where
  envelope : Envelope
  placeholderId : MessageId
  ticket : Nat
deriving DecidableEq

/-- The answer of `/msg/session/init`, as far as it is read. -/
structure SessionInitResponse where
  recipientDid : Did
  recipientUsername : String
  dilithiumPublicKey : String

/-- What an awaited call is rejected with; only the HTTP status is looked at. -/
inductive Err where
  | http (status : Option Nat)
  | error (message : String)
deriving DecidableEq

/-! ## Rows -/

/-- `undecryptable-${senderDid}-${epoch}-${sequence}` -/
def Envelope.placeholderId (e : Envelope) : MessageId :=
  .undecryptable e.senderDid e.epoch e.sequence

/-- The row that `appendUndecryptablePlaceholder` appends. -/
def Envelope.placeholder (e : Envelope) : LocalMessage where
  id := e.placeholderId
  direction := .received
  contentType := .undecryptable
  body := ⟨false, .text ""⟩
  timestamp := e.timestamp
  epoch := e.epoch
  sequence := e.sequence
  status := .failed
  origin := e

/-- The row of an opened `Text`. -/
def Envelope.receivedRow (e : Envelope) (body : Body) : LocalMessage where
  id := .recv e.timestamp e.sequence
  direction := .received
  contentType := .text
  body := body
  timestamp := e.timestamp
  epoch := e.epoch
  sequence := e.sequence
  status := .delivered
  origin := e

/-- Handshake envelopes are processed before all others. -/
def Envelope.isHandshake (e : Envelope) : Bool :=
  e.contentType == .keyExchange || e.contentType == .keyRatchet

end Messaging
