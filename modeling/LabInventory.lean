import LabInventory.Schema
import LabInventory.AccessControl.Basic
import LabInventory.AccessControl.Theorems
import LabInventory.FileUploads.Basic
import LabInventory.Attachments.Basic
import LabInventory.Users.Basic
import LabInventory.Users.Theorems
import LabInventory.Library.Watch
import LabInventory.Users.Updates
import LabInventory.Library.PathForest
import LabInventory.Trees.Basic
import LabInventory.Trees.Theorems
import LabInventory.Units.Basic
import LabInventory.Assets.Basic
import LabInventory.Assets.Creation
import LabInventory.AssetParameters.Basic
import LabInventory.BorrowRequests.Basic
import LabInventory.InventoryItems.Stock
import LabInventory.InventoryItems.Merging
import LabInventory.Federation.Security
import LabInventory.Federation.Verification
import LabInventory.Federation.Signature
import LabInventory.Federation.Pairing.Basic
import LabInventory.Federation.Pairing.Effects
import LabInventory.Federation.Pairing.Isolation
import LabInventory.Federation.Proxy
import LabInventory.Federation.Pairing.Handshake
import LabInventory.Federation.Pairing.Direction
import LabInventory.Federation.GuestLinks.Distinct
import LabInventory.Federation.GuestLinks.Merging
import LabInventory.Federation.GuestLinks.Guests
import LabInventory.Federation.Borrowing.Basic
import LabInventory.Federation.Borrowing.Own
import LabInventory.Federation.GuestLinks.Basic
import LabInventory.Federation.GuestLinks.Effects
import LabInventory.AssetParameters.Options
import LabInventory.Assets.RoundTrip
import LabInventory.Shared.ParameterFilters
import LabInventory.Assets.UnitFilters
import LabInventory.Library.Effects
import LabInventory.InventoryItems.Effects
import LabInventory.Assets.Effects
import LabInventory.AssetParameters.Effects
import LabInventory.Units.Coherence
import LabInventory.Trees.Deletion
import LabInventory.AssetParameters.Replacement
import LabInventory.Trees.Effects
import LabInventory.InventoryItems.Reachable
import LabInventory.BorrowRequests.Approval
import LabInventory.InventoryItems.Aggregates
import LabInventory.InventoryItems.Clearing
import LabInventory.InventoryItems.Batches
import LabInventory.Library.Frame
import LabInventory.Assets.Conversion
import LabInventory.Federation.Delivery
import LabInventory.Library.Bitmap
import LabInventory.Library.PackBits
import LabInventory.LabelPrinting.Media
import LabInventory.Library.CommandStream
import LabInventory.LabelPrinting.Raster
import LabInventory.LabelPrinting.Printer
import LabInventory.Labels.Bitmap
import LabInventory.Domain.File
import LabInventory.Library.UnixPath
import LabInventory.FileStorage.Local
import LabInventory.Federation.Targets
import LabInventory.Federation.Forwarding
import LabInventory.Library.LikePattern
import LabInventory.Shared.KeywordSearch
import LabInventory.InventoryItems.Serials
import LabInventory.AssetParameters.Migrations
import LabInventory.Assets.Overwriting
import LabInventory.Assets.RequiredParameters
import LabInventory.Attachments.Assignment
import LabInventory.InventoryItems.AttachmentGroups
import LabInventory.Domain.LabelPrinter
import LabInventory.LabelPrinting.Status
import LabInventory.LabelPrinting.Transport
import LabInventory.LabelPrinters.Print
import LabInventory.Library.Utf16
import LabInventory.Labels.WrapText
import LabInventory.Federation.Replay
import LabInventory.Guests.Basic
import LabInventory.Guests.Registration
import LabInventory.InventoryItems.Edits
import LabInventory.BorrowRequests.Lifecycle
import LabInventory.Library.Tally
import LabInventory.InventoryItems.Conservation
import LabInventory.Library.Listing
import LabInventory.Federation.PublicData.Basic
import LabInventory.Federation.PublicData.Visibility
import LabInventory.Federation.PublicData.Pages
import LabInventory.Library.Depot
import LabInventory.Attachments.Accounting
import LabInventory.FileStorage.Accounting
import LabInventory.Library.History
import LabInventory.FileUploads.Spending
import LabInventory.Federation.Pairing.Concurrent
import LabInventory.Federation.Pairing.History
import LabInventory.Library.FixedWindow
import LabInventory.Guests.RateLimit
