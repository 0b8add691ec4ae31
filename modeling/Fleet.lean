import Fleet.Main
import Fleet.Api.Handlers
import Fleet.CommandLine
import Fleet.Config.Build
import Fleet.Config.Document
import Fleet.Rehearsal
import Fleet.Source.Client
import Fleet.Json.Ascii
import Fleet.Proofs.Provisioner.InFlight
import Fleet.Proofs.Provisioner.Request
import Fleet.Proofs.Provisioner.Life
import Fleet.Proofs.Custody.Conservation
import Fleet.Proofs.Node.Authority
import Fleet.Proofs.Node.Life
import Fleet.Proofs.Node.Leak
import Fleet.Proofs.Slots.Accounting
import Fleet.Proofs.Slots.Limit
import Fleet.Proofs.Slots.Identity
import Fleet.Proofs.Api.Mediation
import Fleet.Proofs.Node.Calls
import Fleet.Proofs.Api.Refusal
import Fleet.Proofs.Provisioner.Isolation
import Fleet.Proofs.Slots.Supply
import Fleet.Proofs.Provisioner.InSteps
import Fleet.Proofs.Provisioner.Tally
import Fleet.Proofs.Config.InForce
import Fleet.Proofs.Store.Maps
import Fleet.Proofs.Node.Restored
import Fleet.Proofs.Provisioner.Unmet
import Fleet.Proofs.Provisioner.ByHand
import Fleet.Proofs.Node.Activity
import Fleet.Proofs.Node.Clearing
import Fleet.Proofs.Duration
import Fleet.Proofs.Ledger.Book
import Fleet.Proofs.Planned.Resolution
import Fleet.Proofs.Source.Clients
import Fleet.Proofs.Smoothing
import Fleet.Proofs.History
