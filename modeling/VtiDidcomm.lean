import VtiDidcomm.Did.SourceBook
import VtiDidcomm.Did.Reference
import VtiDidcomm.Did.WebvhRoundTrip
import VtiDidcomm.Did.WebvhGuard
import VtiDidcomm.Did.WebvhVersion
import VtiDidcomm.Net.IpClass
import VtiDidcomm.Net.Narrowing
import VtiDidcomm.Client.Egress
import VtiDidcomm.Resolver.Invalidation
import VtiDidcomm.Resolver.Lru
import VtiDidcomm.Resolver.Flight
import VtiDidcomm.Resolver.History
import VtiDidcomm.Resolver.Soundness
import VtiDidcomm.Session.Ack
import VtiDidcomm.Session.Connection
import VtiDidcomm.Session.Dedup
import VtiDidcomm.Session.SeededKeys
import VtiDidcomm.Session.BadFrames
import VtiDidcomm.Envelope.SenderKid
import VtiDidcomm.Envelope.KdfInput
import VtiDidcomm.Did.ScidDocument
import VtiDidcomm.Did.Key
import VtiDidcomm.Client.KeyAgreementAgree
import VtiDidcomm.Did.WebvhLogUrl
import VtiDidcomm.Did.PeerKeys
import VtiDidcomm.Did.PeerService
import VtiDidcomm.Envelope.ContentTag
import VtiDidcomm.Codec.Base64Text
import VtiDidcomm.Codec.Base58Carry
import VtiDidcomm.Session.TspFrame
import VtiDidcomm.Session.Demux
import VtiDidcomm.Envelope.PartyInfo
import VtiDidcomm.Envelope.Integrity
import VtiDidcomm.Client.Relay
import VtiDidcomm.Session.Pickup
import VtiDidcomm.Session.Reply
import VtiDidcomm.Client.DidKeyPeers
import VtiDidcomm.Client.RestCalls
import VtiDidcomm.Client.Redirects
import VtiDidcomm.Client.Dialed
