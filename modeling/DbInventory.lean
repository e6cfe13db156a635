import DbInventory.Main
import DbInventory.Proofs.Api.AnyServer
import DbInventory.Proofs.Api.Completeness
import DbInventory.Proofs.Api.ListingReply
import DbInventory.Proofs.Api.Replies
import DbInventory.Proofs.Api.TagCollection
import DbInventory.Proofs.Digest.Bursts
import DbInventory.Proofs.Files
import DbInventory.Proofs.Instance.Items
import DbInventory.Proofs.Instance.RoundTrip
import DbInventory.Proofs.Listing.Arguments
import DbInventory.Proofs.Listing.Output
import DbInventory.Proofs.Listing.Reread
import DbInventory.Proofs.Listing.State
import DbInventory.Proofs.Listing.Storable
import DbInventory.Proofs.Saving
import DbInventory.Proofs.Schema.OneMap
import DbInventory.Proofs.Schema.Validity
import DbInventory.Proofs.Secrecy
import DbInventory.Proofs.Signing.Dates
import DbInventory.Proofs.Signing.Verification
import DbInventory.Proofs.CommandLine.Values
import DbInventory.Proofs.Schema.Extension
import DbInventory.Proofs.Layout
