import ChatSync.Assoc
import ChatSync.Bus
import ChatSync.Cache.Keyed
import ChatSync.Cache.Rules
import ChatSync.Cache.Script
import ChatSync.Config
import ChatSync.Entity
import ChatSync.Event
import ChatSync.Json.Models
import ChatSync.Json.Value
import ChatSync.Main
import ChatSync.Merge
import ChatSync.Model
import ChatSync.Realm
import ChatSync.Realm.Replay
import ChatSync.Realm.Scripted
import ChatSync.Service.Basic
import ChatSync.Service.Messages
import ChatSync.Service.Overview
import ChatSync.Service.Reads
import ChatSync.Service.Replay
import ChatSync.Service.Roster
import ChatSync.Session.Run
import ChatSync.Session.Step
import ChatSync.Sort
import ChatSync.Store.Basic
import ChatSync.Store.Chats
import ChatSync.Store.Messages
import ChatSync.Store.Realm
import ChatSync.Store.Schema
import ChatSync.Store.Users
import ChatSync.Text.Blank
import ChatSync.Time.Civil
import ChatSync.Time.Instant
import ChatSync.Time.Reader
import ChatSync.Proofs.Service.Atomicity
import ChatSync.Proofs.Service.ChatWrites
import ChatSync.Proofs.Time.StoredText
import ChatSync.Proofs.Session.ChatCoherence
import ChatSync.Proofs.Service.Redelivery
import ChatSync.Proofs.Service.RosterAgain
import ChatSync.Proofs.Service.PrivateChats
import ChatSync.Proofs.Cache.Loads
import ChatSync.Proofs.Service.RealmPurge
import ChatSync.Proofs.Store.ReadFlags
import ChatSync.Proofs.Service.ReadFlags
import ChatSync.Proofs.Session.ReadFlags
import ChatSync.Proofs.Store.SyncMarkers
import ChatSync.Proofs.Service.Moves
import ChatSync.Proofs.Service.SyncMarkers
import ChatSync.Proofs.Session.SyncMarkers
import ChatSync.Proofs.MergeAgain
import ChatSync.Proofs.Cache.LastMessage
import ChatSync.Proofs.Bus
import ChatSync.Proofs.Service.FullSync
import ChatSync.Proofs.PrivateChatIds
import ChatSync.Proofs.Service.PrivateChatOnce
import ChatSync.Proofs.Sorting
import ChatSync.Proofs.Chronology
import ChatSync.Proofs.Service.OlderPages
import ChatSync.Proofs.Time.TextOrder
import ChatSync.Proofs.Store.MessageOrder
import ChatSync.Proofs.IdText
import ChatSync.Proofs.Cache.Participants
import ChatSync.Proofs.Service.ChatOrder
import ChatSync.Proofs.Cache.RosterAgreement
import ChatSync.Proofs.Store.OneAccount
import ChatSync.Proofs.Service.RosterCache
import ChatSync.Proofs.Service.RosterEvents
import ChatSync.Proofs.Session.RosterCoherence
import ChatSync.Proofs.Session.LastCoherence
import ChatSync.Proofs.Service.PrivateFiling
import ChatSync.Proofs.Session.PrivateFiling
